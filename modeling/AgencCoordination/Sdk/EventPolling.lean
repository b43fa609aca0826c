import AgencCoordination.Foundations.Paging
import AgencCoordination.Foundations.Recent
import AgencCoordination.Foundations.Run
import AgencCoordination.Sdk.Events

/-!
# Event subscriptions

`subscribeMarketplaceEventsViaPolling` and the pump of `subscribeMarketplaceEvents`. Polling keeps
a high-water mark for each watched address and pages backwards from the newest signature to it;
both remember the signatures they saw lately. The RPC is a parameter: every answer is to a
question numbered by the calls made before it, since the chain moves on between two calls.
-/

namespace AgencCoordination.Sdk

open Foundations

/-- `MAX_TRACKED_SIGNATURES`. -/
def maxTrackedSignatures : ℕ := 1000

/-- `DEFAULT_MAX_PAGES_PER_ROUND`. -/
def defaultMaxPagesPerRound : ℕ := 10

/-- `SignatureInfo`: a signature, and whether its transaction failed. -/
structure SignatureInfo (Signature : Type) where
  signature : Signature
  failed : Bool := false
  deriving DecidableEq

/-- `MarketplaceEventsPollingRpc`, as it answers the question after so many others:
`getSignaturesForAddress` with `until` and `before`, and the log messages of `getTransaction`. -/
structure MarketplaceEventsPollingRpc (Address Signature RpcError : Type) where
  getSignaturesForAddress : ℕ → Address → Option Signature → Option Signature →
    Except RpcError (List (SignatureInfo Signature))
  getTransaction : ℕ → Signature → Except RpcError (Option (List (List Char)))

/-- The options of a subscription; `decodeEventBlob` decodes what an event line carries, and
`wanted` is the filter by event name. -/
structure PollingOptions (Address AgencEvent : Type) where
  watched : List Address
  decodeEventBlob : List Char → Option AgencEvent
  wanted : AgencEvent → Bool := fun _ => true
  maxPagesPerRound : ℕ := defaultMaxPagesPerRound

/-- What the generator keeps between two calls: `watermarks`, `baselined`, and the remembered
signatures in their order. `calls` counts the calls made. -/
structure PollState (Address Signature : Type) where
  watermarks : Address → Option Signature := fun _ => none
  baselined : List Address := []
  seenSignatures : List Signature := []
  calls : ℕ := 0

/-- A transaction that was fetched, and the events it yielded. -/
structure Fetched (Signature AgencEvent : Type) where
  signature : Signature
  events : List AgencEvent

variable {Address Signature RpcError AgencEvent : Type} [DecidableEq Address]
  [DecidableEq Signature]

/-- The wanted events of the log messages of a transaction. -/
def wantedEvents (decodeEventBlob : List Char → Option AgencEvent) (wanted : AgencEvent → Bool)
    (logMessages : Option (List (List Char))) : List AgencEvent :=
  match logMessages with
  | none => []
  | some logs => (parseAgencCoordinationEvents decodeEventBlob logs).filter wanted

/-! ## Polling -/

/-- The pages of one round of an address, newest first, until one is empty or the bound is hit;
and the number of calls made by then. -/
def fetchSignaturePages (rpc : MarketplaceEventsPollingRpc Address Signature RpcError)
    (watchedAddress : Address) (mark : Option Signature) :
    ℕ → ℕ → Option Signature → Except RpcError (List (List (SignatureInfo Signature)) × ℕ)
  | 0, calls, _ => .ok ([], calls)
  | page + 1, calls, before => do
      let infos ← rpc.getSignaturesForAddress calls watchedAddress mark before
      match infos.getLast? with
      | none => .ok ([], calls + 1)
      | some last => do
          let (pages, calls) ← fetchSignaturePages rpc watchedAddress mark page (calls + 1)
            (some last.signature)
          .ok (infos :: pages, calls)

/-- The signatures of a round, oldest first: a failed transaction and one seen lately are passed
over, every other is remembered, fetched and decoded. -/
def yieldSignatures (rpc : MarketplaceEventsPollingRpc Address Signature RpcError)
    (options : PollingOptions Address AgencEvent) :
    List Signature → ℕ → List (SignatureInfo Signature) →
      Except RpcError (List Signature × ℕ × List (Fetched Signature AgencEvent))
  | seen, calls, [] => .ok (seen, calls, [])
  | seen, calls, info :: infos =>
      if info.failed || decide (info.signature ∈ seen) then
        yieldSignatures rpc options seen calls infos
      else do
        let seen := remember maxTrackedSignatures seen info.signature
        let logMessages ← rpc.getTransaction calls info.signature
        let (seen, calls, fetched) ← yieldSignatures rpc options seen (calls + 1) infos
        .ok (seen, calls, ⟨info.signature,
          wantedEvents options.decodeEventBlob options.wanted logMessages⟩ :: fetched)

/-- One address in one round. The first time, only the high-water mark is recorded. -/
def pollAddress (rpc : MarketplaceEventsPollingRpc Address Signature RpcError)
    (options : PollingOptions Address AgencEvent) (s : PollState Address Signature)
    (watchedAddress : Address) :
    Except RpcError (PollState Address Signature × List (Fetched Signature AgencEvent)) :=
  if watchedAddress ∉ s.baselined then do
    let infos ← rpc.getSignaturesForAddress s.calls watchedAddress (s.watermarks watchedAddress)
      none
    .ok ({ s with
      watermarks := match infos.head? with
        | none => s.watermarks
        | some newest => Function.update s.watermarks watchedAddress (some newest.signature)
      baselined := watchedAddress :: s.baselined
      calls := s.calls + 1 }, [])
  else do
    let (pages, calls) ← fetchSignaturePages rpc watchedAddress (s.watermarks watchedAddress)
      options.maxPagesPerRound s.calls none
    match pages with
    | [] => .ok ({ s with calls := calls }, [])
    | newestPage :: _ => do
        let watermarks := match newestPage.head? with
          | none => s.watermarks
          | some newest => Function.update s.watermarks watchedAddress (some newest.signature)
        -- The pages, and each page, backwards.
        let (seen, calls, fetched) ← yieldSignatures rpc options s.seenSignatures calls
          (pages.reverse.map List.reverse).flatten
        .ok ({ s with
          watermarks := watermarks
          seenSignatures := seen
          calls := calls }, fetched)

/-- `subscribeMarketplaceEventsViaPolling` for some rounds, with the record of every poll. The
chain moves on while the generator sleeps between two rounds as it does between two calls. -/
def subscribeMarketplaceEventsViaPolling
    (rpc : MarketplaceEventsPollingRpc Address Signature RpcError)
    (options : PollingOptions Address AgencEvent) (rounds : ℕ) :
    Except RpcError (PollState Address Signature ×
      List (Event (PollState Address Signature)
        (Address × List (Fetched Signature AgencEvent)))) :=
  Run.record (pollAddress rpc options) {} (List.replicate rounds options.watched).flatten

/-! ## Notifications -/

/-- The `value` of a `LogsNotification`. -/
structure LogsNotification (Signature : Type) where
  failed : Bool
  logs : Option (List (List Char))
  signature : Signature

/-- The pumps of `subscribeMarketplaceEvents`, on the notifications of all subscriptions in the
order of their arrival: with several watched addresses a signature seen lately is passed over. -/
def pumpNotifications (options : PollingOptions Address AgencEvent) :
    List Signature → List (LogsNotification Signature) → List (Fetched Signature AgencEvent)
  | _, [] => []
  | seen, n :: notifications =>
      match n.logs with
      | none => pumpNotifications options seen notifications
      | some logs =>
          if n.failed then pumpNotifications options seen notifications
          else if 1 < options.watched.length then
            if n.signature ∈ seen then pumpNotifications options seen notifications
            else ⟨n.signature,
                wantedEvents options.decodeEventBlob options.wanted (some logs)⟩ ::
              pumpNotifications options (remember maxTrackedSignatures seen n.signature)
                notifications
          else ⟨n.signature, wantedEvents options.decodeEventBlob options.wanted (some logs)⟩ ::
            pumpNotifications options seen notifications

end AgencCoordination.Sdk

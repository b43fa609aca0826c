import AgencCoordination.Worker.JobSpecFetch

/-!
# Fetching is pinned and verified

Whatever the network answers, a socket goes to an address that was found public for the very hop
that opens it, and to no answer of another lookup; the hops are one more than the redirects allowed
at most. And whatever comes back, content is passed on only as the canonical JSON of a payload whose
hash is the pinned one.

* **`PinnedHop`** — what a hop may do on the network.
* **`fetchHop_log`, `followRedirects_log`** — one hop, and the whole chain.
* **`jobSpec_fetching`** — a run from the pointer to the content.
-/

namespace AgencCoordination.Worker

open Foundations Sdk
open Foundations.JsonValue (word)

/-! ## One hop -/

/-- What a hop may do on the network: nothing, a lookup that leads nowhere, a connection to the
public literal its URL holds, or a lookup whose answers are all public and a connection to the first
of them. -/
inductive PinnedHop (runtime : AddressRuntime) : Url → List NetEvent → Prop
  | idle {url : Url} : PinnedHop runtime url []
  | unresolved {url : Url} (answer : Option (List ResolvedAddress)) :
      PinnedHop runtime url [.lookup (hostnameWithoutBrackets url.hostname) answer]
  | literal {url : Url} {address : ResolvedAddress} (fetchable : validateFetchUrl url = .ok ())
      (own : address.address = hostnameWithoutBrackets url.hostname)
      (family : runtime.isIP address.address = address.family)
      (isPublic : isPublicIpAddress runtime address.address = true) :
      PinnedHop runtime url [.connect (requestOptions runtime url address)]
  | resolved {url : Url} {address : ResolvedAddress} {others : List ResolvedAddress}
      (fetchable : validateFetchUrl url = .ok ())
      (allPublic : ∀ r ∈ address :: others, isPublicIpAddress runtime r.address = true) :
      PinnedHop runtime url [.lookup (hostnameWithoutBrackets url.hostname)
        (some (address :: others)), .connect (requestOptions runtime url address)]

/-- A hop connects to public addresses only. -/
theorem PinnedHop.connects_public {runtime : AddressRuntime} {url : Url} {events : List NetEvent}
    (h : PinnedHop runtime url events) {options : RequestOptions}
    (hmem : NetEvent.connect options ∈ events) :
    isPublicIpAddress runtime options.hostname = true := by
  cases h with
  | idle => cases hmem
  | unresolved answer =>
    cases List.mem_singleton.mp hmem
  | literal fetchable own family isPublic =>
    cases List.mem_singleton.mp hmem
    exact isPublic
  | resolved fetchable allPublic =>
    rcases List.mem_cons.mp hmem with heq | hmem
    · cases heq
    · cases List.mem_singleton.mp hmem
      exact allPublic _ List.mem_cons_self

/-- The address taken is the first, and all are public. -/
theorem publicAddress_ok {runtime : AddressRuntime} {hostname : Utf16}
    {addresses : List ResolvedAddress} {address : ResolvedAddress}
    (h : publicAddress runtime hostname addresses = .ok address) :
    ∃ others, addresses = address :: others ∧
      ∀ r ∈ addresses, isPublicIpAddress runtime r.address = true := by
  unfold publicAddress at h
  split at h
  · cases h
  · rename_i first others
    split at h
    · cases h
    · rename_i hfind
      cases h
      refine ⟨others, rfl, fun r hr => ?_⟩
      have hnone := List.find?_eq_none.mp hfind r hr
      rwa [Bool.not_eq_true, Bool.not_eq_false'] at hnone

/-- The lookup hands its records over unchanged. -/
theorem defaultResolver_ok {hostname : Utf16} {records addresses : List ResolvedAddress}
    (h : defaultResolver hostname records = .ok addresses) : addresses = records := by
  unfold defaultResolver at h
  split at h
  · cases h
  · cases h
    rfl

/-- Resolving makes one lookup at most, and none for a literal; an address that comes out was found
public in that lookup. -/
theorem resolvePublicAddress_log {runtime : AddressRuntime} {net : Network} {url : Url}
    {log log' : Log} {outcome : Except FetchFailure ResolvedAddress}
    (h : resolvePublicAddress runtime net url log = (outcome, log')) :
    (log' = log ∧ ∀ address, outcome = .ok address →
      address.address = hostnameWithoutBrackets url.hostname ∧
      runtime.isIP address.address = address.family ∧
      isPublicIpAddress runtime address.address = true) ∨
    ∃ answer, log' = log ++ [.lookup (hostnameWithoutBrackets url.hostname) answer] ∧
      ∀ address, outcome = .ok address → ∃ others, answer = some (address :: others) ∧
        ∀ r ∈ address :: others, isPublicIpAddress runtime r.address = true := by
  unfold resolvePublicAddress at h
  dsimp only at h
  split at h
  · obtain ⟨houtcome, hlog⟩ := Prod.mk.inj h
    refine .inl ⟨hlog.symm, fun address haddress => ?_⟩
    rw [haddress] at houtcome
    obtain ⟨others, heq, hpublic⟩ := publicAddress_ok houtcome
    obtain ⟨rfl, -⟩ := List.cons.inj heq
    exact ⟨rfl, rfl, hpublic _ (List.mem_singleton_self _)⟩
  · split at h
    · obtain ⟨houtcome, hlog⟩ := Prod.mk.inj h
      refine .inr ⟨none, hlog.symm, fun address haddress => ?_⟩
      rw [haddress] at houtcome
      cases houtcome
    · rename_i records _
      obtain ⟨houtcome, hlog⟩ := Prod.mk.inj h
      refine .inr ⟨some records, hlog.symm, fun address haddress => ?_⟩
      rw [haddress] at houtcome
      obtain ⟨addresses, hresolved, hchosen⟩ := bind_eq_ok.mp houtcome
      rw [defaultResolver_ok hresolved] at hchosen
      obtain ⟨others, rfl, hpublic⟩ := publicAddress_ok hchosen
      exact ⟨others, rfl, hpublic⟩

/-- One hop. -/
theorem fetchHop_log {runtime : AddressRuntime} {net : Network} {maxBytes : ℕ} {url : Url}
    {log log' : Log} {outcome : Except JobSpecError HopResponse}
    (h : fetchHop runtime net maxBytes url log = (outcome, log')) :
    ∃ events, log' = log ++ events ∧ PinnedHop runtime url events := by
  unfold fetchHop at h
  split at h
  · cases h
    exact ⟨[], (List.append_nil _).symm, .idle⟩
  · rename_i hfetchable
    split at h
    · rename_i log₁ e hresolve
      cases h
      rcases resolvePublicAddress_log hresolve with ⟨hlog, -⟩ | ⟨answer, hlog, -⟩
      · exact ⟨[], by rw [hlog, List.append_nil], .idle⟩
      · exact ⟨_, hlog, .unresolved answer⟩
    · rename_i address log₁ hresolve
      have hsent : log' = log₁ ++ [.connect (requestOptions runtime url address)] := by
        unfold defaultPinnedRequester at h
        dsimp only at h
        split at h
        · rename_i hrequest
          cases h
          exact (Prod.mk.inj hrequest).2.symm
        · rename_i hrequest
          cases h
          exact (Prod.mk.inj hrequest).2.symm
      rcases resolvePublicAddress_log hresolve with ⟨hlog, hliteral⟩ | ⟨answer, hlog, hanswer⟩
      · obtain ⟨hown, hfamily, hpublic⟩ := hliteral address rfl
        exact ⟨_, by rw [hsent, hlog], .literal hfetchable hown hfamily hpublic⟩
      · obtain ⟨others, rfl, hpublic⟩ := hanswer address rfl
        refine ⟨_, ?_, .resolved hfetchable hpublic⟩
        rw [hsent, hlog, List.append_assoc, List.singleton_append]

/-! ## The chain -/

/-- The hops of a chain: each URL after the first is what a `Location` names on the one before. -/
structure Hops (runtime : AddressRuntime) (net : Network) (start : Url)
    (hops : List (Url × List NetEvent)) : Prop where
  first : ∀ hop ∈ hops.head?, hop.1 = start
  next : hops.IsChain fun a b => ∃ location, net.parseUrl location (some a.1) = some b.1
  pinned : ∀ hop ∈ hops, PinnedHop runtime hop.1 hop.2

theorem Hops.single {runtime : AddressRuntime} {net : Network} {url : Url}
    {events : List NetEvent} (h : PinnedHop runtime url events) :
    Hops runtime net url [(url, events)] where
  first hop hhop := by
    cases hhop
    rfl
  next := List.isChain_singleton _
  pinned hop hhop := by
    rw [List.mem_singleton.mp hhop]
    exact h

theorem Hops.cons {runtime : AddressRuntime} {net : Network} {url next : Url} {location : Utf16}
    {events : List NetEvent} {hops : List (Url × List NetEvent)}
    (h : PinnedHop runtime url events) (hnext : net.parseUrl location (some url) = some next)
    (hrest : Hops runtime net next hops) : Hops runtime net url ((url, events) :: hops) where
  first hop hhop := by
    cases hhop
    rfl
  next := by
    refine List.isChain_cons.mpr ⟨fun hop hhop => ?_, hrest.next⟩
    refine ⟨location, ?_⟩
    rw [hrest.first hop hhop]
    exact hnext
  pinned hop hhop := by
    rcases List.mem_cons.mp hhop with rfl | hhop
    · exact h
    · exact hrest.pinned hop hhop

/-- The whole chain: one hop more than the redirects left, at most. -/
theorem followRedirects_log {runtime : AddressRuntime} {net : Network} {maxBytes maxRedirects : ℕ}
    {remaining : ℕ} {url : Url} {log log' : Log} {outcome : Except JobSpecError (List UInt8)}
    (h : followRedirects runtime net maxBytes maxRedirects remaining url log = (outcome, log')) :
    ∃ hops, Hops runtime net url hops ∧ hops.length ≤ remaining + 1 ∧
      log' = log ++ (hops.map Prod.snd).flatten := by
  induction remaining generalizing url log with
  | zero =>
    rw [followRedirects] at h
    have hsingle : ∀ {hop log₁}, fetchHop runtime net maxBytes url log = (hop, log₁) →
        ∃ hops, Hops runtime net url hops ∧ hops.length ≤ 0 + 1 ∧
          log₁ = log ++ (hops.map Prod.snd).flatten := by
      intro hop log₁ hhop
      obtain ⟨events, hlog, hpinned⟩ := fetchHop_log hhop
      refine ⟨[(url, events)], .single hpinned, le_rfl, ?_⟩
      rw [hlog, List.map_singleton, List.flatten_singleton]
    split at h
    · rename_i hhop
      cases h
      exact hsingle hhop
    · rename_i hhop
      cases h
      exact hsingle hhop
    · rename_i hhop
      cases h
      exact hsingle hhop
  | succ remaining ih =>
    rw [followRedirects] at h
    have hsingle : ∀ {hop log₁}, fetchHop runtime net maxBytes url log = (hop, log₁) →
        ∃ hops, Hops runtime net url hops ∧ hops.length ≤ remaining + 1 + 1 ∧
          log₁ = log ++ (hops.map Prod.snd).flatten := by
      intro hop log₁ hhop
      obtain ⟨events, hlog, hpinned⟩ := fetchHop_log hhop
      refine ⟨[(url, events)], .single hpinned, Nat.le_add_left _ _, ?_⟩
      rw [hlog, List.map_singleton, List.flatten_singleton]
    split at h
    · rename_i hhop
      cases h
      exact hsingle hhop
    · rename_i hhop
      cases h
      exact hsingle hhop
    · rename_i location log₁ hhop
      dsimp only at h
      split at h
      · cases h
        exact hsingle hhop
      · rename_i next hnext
        obtain ⟨events, hlog, hpinned⟩ := fetchHop_log hhop
        obtain ⟨hops, hrest, hlength, hlog'⟩ := ih h
        refine ⟨(url, events) :: hops, .cons hpinned hnext hrest, ?_, ?_⟩
        · rw [List.length_cons]
          omega
        · rw [hlog', hlog, List.map_cons, List.flatten_cons, List.append_assoc]

/-! ## From the pointer to the content -/

/-- A fetcher of the caller leaves no trace on the network here. -/
theorem fetchEnvelope_log {runtime : AddressRuntime} {net : Network} {options : JobSpecOptions}
    {maxBytes : Number} {pointer : TaskJobSpecPointer} {url : Url} {log log' : Log}
    {outcome : Except JobSpecError (List UInt8)}
    (h : fetchEnvelope runtime net options maxBytes pointer url log = (outcome, log')) :
    ∃ start hops, Hops runtime net start hops ∧
      hops.length ≤ defaultMaxJobSpecRedirects + 1 ∧
      log' = log ++ (hops.map Prod.snd).flatten := by
  have hnone : ∀ {log₁ : Log}, log₁ = log → ∃ start hops, Hops runtime net start hops ∧
      hops.length ≤ defaultMaxJobSpecRedirects + 1 ∧
      log₁ = log ++ (hops.map Prod.snd).flatten := by
    rintro log₁ rfl
    refine ⟨url, [(url, [])], .single .idle, Nat.le_add_left 1 _, ?_⟩
    rw [List.map_singleton, List.flatten_singleton, List.append_nil]
  unfold fetchEnvelope at h
  split at h
  · exact hnone (Prod.mk.inj h).2.symm
  · split at h
    · split at h
      · exact hnone (Prod.mk.inj h).2.symm
      · split at h
        · exact hnone (Prod.mk.inj h).2.symm
        · split at h
          · exact hnone (Prod.mk.inj h).2.symm
          · rename_i fetch hfetch
            simp only [createPublicUriFetcher, bind_eq_ok, demand_eq_ok] at hfetch
            obtain ⟨cap, -, redirects, hredirects, hfetch⟩ := hfetch
            cases hredirects
            cases hfetch
            dsimp only at h
            split at h
            · exact hnone (Prod.mk.inj h).2.symm
            · exact ⟨_, followRedirects_log h⟩
    · exact hnone (Prod.mk.inj h).2.symm

/-- The checks of the pointer. -/
theorem readPointer_ok {net : Network} {options : JobSpecOptions} {pointer : TaskJobSpecPointer}
    {url : Url} (h : readPointer net options = .ok (pointer, url)) :
    options.readJobSpecAccount = some (.ok pointer) ∧
      (∃ byte ∈ pointer.jobSpecHash, byte ≠ 0) ∧
      net.parseUrl pointer.jobSpecUri none = some url := by
  simp only [readPointer, bind_eq_ok, demand_eq_ok, require_eq_ok] at h
  obtain ⟨account, haccount, pointer', rfl, _, hpinned, url', hurl, heq⟩ := h
  cases heq
  refine ⟨haccount, ?_, hurl⟩
  rw [Bool.not_eq_true, List.all_eq_false] at hpinned
  obtain ⟨byte, hbyte, hne⟩ := hpinned
  exact ⟨byte, hbyte, by simpa using hne⟩

/-- A chain connects to public addresses only. -/
theorem Hops.connects_public {runtime : AddressRuntime} {net : Network} {start : Url}
    {hops : List (Url × List NetEvent)} (h : Hops runtime net start hops)
    {options : RequestOptions} (hmem : .connect options ∈ (hops.map Prod.snd).flatten) :
    isPublicIpAddress runtime options.hostname = true := by
  obtain ⟨events, hevents, hconnect⟩ := List.mem_flatten.mp hmem
  obtain ⟨hop, hhop, rfl⟩ := List.mem_map.mp hevents
  exact (h.pinned hop hhop).connects_public hconnect

/-- **Fetching is pinned and verified**: whatever the network answers, in view of everything asked
so far, a run leaves a chain of six hops at most on it, each pinned to addresses found public for
itself; and content comes out only as the canonical JSON of the payload of an envelope, with the
hash that the account pins and that the envelope declares. -/
theorem jobSpec_fetching (runtime : AddressRuntime) (json : JobSpecRuntime) (net : Network)
    (options : JobSpecOptions) (log : Log) :
    (∃ start hops, Hops runtime net start hops ∧
      hops.length ≤ defaultMaxJobSpecRedirects + 1 ∧
      (fetchAndVerifyJobSpec runtime json net options log).2 =
        log ++ (hops.map Prod.snd).flatten ∧
      ∀ request, .connect request ∈ (hops.map Prod.snd).flatten →
        isPublicIpAddress runtime request.hostname = true) ∧
    ∀ spec, (fetchAndVerifyJobSpec runtime json net options log).1 = .ok spec →
      options.readJobSpecAccount = some (.ok ⟨spec.jobSpecHash, spec.jobSpecUri⟩) ∧
      (∃ byte ∈ spec.jobSpecHash, byte ≠ 0) ∧
      ∃ envelopeBytes envelope integrity payload text,
        (utf8Decoder envelopeBytes).bind json.jsonParse = some (.object envelope) ∧
        property envelope "integrity" = some (.object integrity) ∧
        property envelope "payload" = some (.object payload) ∧
        canonicalJobSpecJson (.object payload) = .ok text ∧
        spec.content = utf8Encoder text ∧
        json.sha256 spec.content = spec.jobSpecHash ∧
        property integrity "payloadHash" = some (.string (hexText spec.jobSpecHash)) := by
  have hpublic : ∀ {log₁ : Log}, (∃ start hops, Hops runtime net start hops ∧
      hops.length ≤ defaultMaxJobSpecRedirects + 1 ∧
      log₁ = log ++ (hops.map Prod.snd).flatten) →
      ∃ start hops, Hops runtime net start hops ∧
        hops.length ≤ defaultMaxJobSpecRedirects + 1 ∧
        log₁ = log ++ (hops.map Prod.snd).flatten ∧
        ∀ request, .connect request ∈ (hops.map Prod.snd).flatten →
          isPublicIpAddress runtime request.hostname = true := by
    rintro log₁ ⟨start, hops, hchain, hlength, hlog⟩
    exact ⟨start, hops, hchain, hlength, hlog, fun request => hchain.connects_public⟩
  have hquiet : ∃ start hops, Hops runtime net start hops ∧
      hops.length ≤ defaultMaxJobSpecRedirects + 1 ∧ log = log ++ (hops.map Prod.snd).flatten := by
    refine ⟨⟨[], [], [], [], [], [], [], [], []⟩, [], ⟨?_, List.isChain_nil, ?_⟩, Nat.zero_le _,
      (List.append_nil _).symm⟩
    · exact fun hop hhop => absurd hhop (by simp)
    · exact fun hop hhop => absurd hhop List.not_mem_nil
  generalize hrun : fetchAndVerifyJobSpec runtime json net options log = run
  obtain ⟨outcome, log'⟩ := run
  unfold fetchAndVerifyJobSpec at hrun
  dsimp only at hrun ⊢
  split at hrun
  · obtain ⟨rfl, rfl⟩ := Prod.mk.inj hrun
    exact ⟨hpublic hquiet, fun spec hspec => by cases hspec⟩
  · rename_i cap hcap
    split at hrun
    · obtain ⟨rfl, rfl⟩ := Prod.mk.inj hrun
      exact ⟨hpublic hquiet, fun spec hspec => by cases hspec⟩
    · rename_i pointer url hpointer
      split at hrun
      · rename_i e log₁ hfetch
        obtain ⟨rfl, rfl⟩ := Prod.mk.inj hrun
        exact ⟨hpublic (fetchEnvelope_log hfetch), fun spec hspec => by cases hspec⟩
      · rename_i envelopeBytes log₁ hfetch
        obtain ⟨houtcome, rfl⟩ := Prod.mk.inj hrun
        refine ⟨hpublic (fetchEnvelope_log hfetch), fun spec hspec => ?_⟩
        rw [hspec] at houtcome
        simp only [bind_eq_ok, require_eq_ok] at houtcome
        obtain ⟨_, -, content, hcontent, heq⟩ := houtcome
        cases heq
        obtain ⟨haccount, hpinned, -⟩ := readPointer_ok hpointer
        exact ⟨haccount, hpinned, envelopeBytes, verifyJobSpecEnvelope_content hcontent⟩

end AgencCoordination.Worker

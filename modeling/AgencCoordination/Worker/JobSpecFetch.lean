import AgencCoordination.Sdk.TaskThread
import AgencCoordination.Worker.JobSpecEnvelope
import AgencCoordination.Worker.PublicAddress

/-!
# Fetching a job spec

The on-chain pointer of a task names a URI. The downloader follows its redirects hop by hop: every
hop is parsed, its host resolved, every answer checked, and the socket opened to the first answer
itself. What comes back is an envelope, and only its verified payload is passed on.

The network answers as it likes at every step: what it says may depend on everything that was asked
before. A run leaves a log of the lookups and the connections it made.

* **`createPublicUriFetcher`** — the downloader, one hop after the other.
* **`fetchAndVerifyJobSpec`** — the pointer, the URI and the envelope.
-/

namespace AgencCoordination.Worker

open Foundations Sdk
open Foundations.JsonValue (word)

/-- What the URL parser makes of a text. -/
structure Url where
  protocol : Utf16
  username : Utf16
  password : Utf16
  hostname : Utf16
  host : Utf16
  port : Utf16
  pathname : Utf16
  search : Utf16
  hash : Utf16
deriving DecidableEq

/-- One DNS result. -/
structure ResolvedAddress where
  address : Utf16
  family : ℕ
deriving DecidableEq

/-- The options of a request at the transport: where the socket goes, and the authority it keeps. -/
structure RequestOptions where
  protocol : Utf16
  hostname : Utf16
  family : ℕ
  port : Option ℕ
  path : Utf16
  servername : Option Utf16
  hostHeader : Utf16
deriving DecidableEq

/-- What a run did on the network: a lookup with its answer, a connection. -/
inductive NetEvent where
  | lookup (hostname : Utf16) (answer : Option (List ResolvedAddress))
  | connect (options : RequestOptions)
deriving DecidableEq

/-- Why an operation was rejected: by a check of the job spec, by the deadline, by the runtime. -/
inductive FetchFailure where
  | jobSpec (error : JobSpecError)
  | timeout
  | other (message : Utf16)
deriving DecidableEq

/-- A response as the transport hands it over; its body may fail while it is read. -/
structure Response where
  status : ℕ
  statusMessage : Utf16
  location : Option Utf16
  contentLength : Option Utf16
  body : Except FetchFailure (List (List UInt8))

/-- `HopResponse`. -/
inductive HopResponse where
  | redirect (location : Utf16)
  | success (bytes : List UInt8)

abbrev Log := List NetEvent

/-- The network and the URL parser. Lookups and requests are answered in view of all that went
before. -/
structure Network where
  parseUrl : Utf16 → Option Url → Option Url
  lookup : Log → Utf16 → Except FetchFailure (List ResolvedAddress)
  get : Log → RequestOptions → Except FetchFailure Response

/-! ## One hop -/

/-- `hostnameWithoutBrackets`. -/
def hostnameWithoutBrackets (hostname : Utf16) : Utf16 :=
  if hostname.head? = some 0x5B ∧ hostname.getLast? = some 0x5D then
    (hostname.drop 1).dropLast
  else hostname

/-- `validateFetchUrl`. -/
def validateFetchUrl (url : Url) : Except JobSpecError Unit := do
  require (url.protocol = word "http:" ∨ url.protocol = word "https:")
    ⟨word "refusing job-spec URI scheme " ++ url.protocol.dropLast ++
      word " — only public http(s) is fetched"⟩
  require (url.username = [] ∧ url.password = [])
    ⟨word "refusing job-spec URI containing credentials"⟩
  require (url.hostname ≠ []) ⟨word "job-spec URI has no hostname"⟩

/-- The records of a lookup, if each is of a family (`defaultResolver`). -/
def defaultResolver (hostname : Utf16) (records : List ResolvedAddress) :
    Except FetchFailure (List ResolvedAddress) :=
  match records.find? fun r => r.family ≠ 4 ∧ r.family ≠ 6 with
  | some r => .error (.jobSpec ⟨word "unsupported address family " ++ countText r.family ++
      word " for " ++ hostname⟩)
  | none => .ok records

/-- The first of the addresses, if there is one and all are public. -/
def publicAddress (runtime : AddressRuntime) (hostname : Utf16) (addresses : List ResolvedAddress) :
    Except FetchFailure ResolvedAddress :=
  match addresses with
  | [] => .error (.jobSpec ⟨word "job-spec hostname " ++ hostname ++
      word " resolved to no addresses"⟩)
  | first :: _ =>
    match addresses.find? fun r => !isPublicIpAddress runtime r.address with
    | some nonPublic => .error (.jobSpec ⟨word "refusing non-public job-spec target " ++ hostname ++
        word " (" ++ nonPublic.address ++ word ")"⟩)
    | none => .ok first

/-- `resolvePublicAddress`: an address literal is taken as it is, a name is looked up. -/
def resolvePublicAddress (runtime : AddressRuntime) (net : Network) (url : Url) (log : Log) :
    Except FetchFailure ResolvedAddress × Log :=
  let hostname := hostnameWithoutBrackets url.hostname
  if runtime.isIP hostname ≠ 0 then
    (publicAddress runtime hostname [⟨hostname, runtime.isIP hostname⟩], log)
  else
    match net.lookup log hostname with
    | .error e => (.error e, log ++ [.lookup hostname none])
    | .ok records =>
      ((defaultResolver hostname records).bind (publicAddress runtime hostname),
        log ++ [.lookup hostname (some records)])

/-- What `defaultPinnedRequester` asks of the transport: the socket goes to the address, the
authority stays the one of the URL. -/
def requestOptions (runtime : AddressRuntime) (url : Url) (address : ResolvedAddress) :
    RequestOptions where
  protocol := url.protocol
  hostname := address.address
  family := address.family
  port := if url.port = [] then none else numeral 10 decimalValue url.port
  path := url.pathname ++ url.search
  servername :=
    if url.protocol = word "https:" ∧
        runtime.isIP (hostnameWithoutBrackets url.hostname) = 0 then
      some (hostnameWithoutBrackets url.hostname)
    else none
  hostHeader := url.host

/-- `REDIRECT_STATUSES`. -/
def redirectStatuses : List ℕ := [301, 302, 303, 307, 308]

/-- A body of at most so many bytes. -/
def readBody (maxBytes : ℕ) (chunks : List (List UInt8)) : Except FetchFailure (List UInt8) :=
  if maxBytes < (chunks.map List.length).sum then
    .error (.jobSpec ⟨word "job spec exceeds the " ++ countText maxBytes ++ word "-byte cap"⟩)
  else .ok chunks.flatten

/-- What `defaultPinnedRequester` makes of a response. -/
def readResponse (maxBytes : ℕ) (response : Response) : Except FetchFailure HopResponse :=
  if response.status ∈ redirectStatuses then
    match response.location with
    | none => .error (.jobSpec ⟨word "job-spec redirect " ++ countText response.status ++
        word " has no Location header"⟩)
    | some location => .ok (.redirect location)
  else if response.status < 200 ∨ 300 ≤ response.status then
    .error (.jobSpec ⟨trim (word "job-spec download failed: " ++ countText response.status ++
      word " " ++ response.statusMessage)⟩)
  else
    let declared := response.contentLength.filter fun text => text ≠ []
    match declared.bind fun text => (numeral 10 decimalValue text).filter (maxBytes < ·) with
    | some _ => .error (.jobSpec ⟨word "job spec exceeds the " ++ countText maxBytes ++
        word "-byte cap (content-length " ++ declared.getD [] ++ word ")"⟩)
    | none => (response.body.bind (readBody maxBytes)).map .success

/-- `defaultPinnedRequester`. -/
def defaultPinnedRequester (runtime : AddressRuntime) (net : Network) (maxBytes : ℕ) (url : Url)
    (address : ResolvedAddress) (log : Log) : Except FetchFailure HopResponse × Log :=
  let options := requestOptions runtime url address
  ((net.get log options).bind (readResponse maxBytes), log ++ [.connect options])

/-- The error that a rejected operation becomes. -/
def fetchError (context : Utf16) : FetchFailure → JobSpecError
  | .jobSpec e => e
  | .timeout => ⟨word "job-spec download timed out after 30000ms"⟩
  | .other message => ⟨context ++ message⟩

/-- A hop of the downloader: the URL is checked, its host resolved, the request sent. -/
def fetchHop (runtime : AddressRuntime) (net : Network) (maxBytes : ℕ) (current : Url) (log : Log) :
    Except JobSpecError HopResponse × Log :=
  match validateFetchUrl current with
  | .error e => (.error e, log)
  | .ok () =>
    match resolvePublicAddress runtime net current log with
    | (.error e, log) => (.error (fetchError
        (word "job-spec DNS lookup failed for " ++ current.hostname ++ word ": ") e), log)
    | (.ok address, log) =>
      match defaultPinnedRequester runtime net maxBytes current address log with
      | (.error e, log) => (.error (fetchError (word "job-spec download failed: ") e), log)
      | (.ok response, log) => (.ok response, log)

/-! ## The redirects -/

/-- The loop of the downloader, with the redirects that are left. -/
def followRedirects (runtime : AddressRuntime) (net : Network) (maxBytes maxRedirects : ℕ) :
    ℕ → Url → Log → Except JobSpecError (List UInt8) × Log
  | remaining, current, log =>
    match fetchHop runtime net maxBytes current log with
    | (.error e, log) => (.error e, log)
    | (.ok (.success bytes), log) => (.ok bytes, log)
    | (.ok (.redirect location), log) =>
      match remaining with
      | 0 => (.error ⟨word "job-spec download exceeded " ++ countText maxRedirects ++
          word " redirects"⟩, log)
      | remaining + 1 =>
        match net.parseUrl location (some current) with
        | none => (.error ⟨word "job-spec redirect has an invalid Location: " ++
            JsonValue.quote location⟩, log)
        | some next => followRedirects runtime net maxBytes maxRedirects remaining next log

/-- `DEFAULT_MAX_JOB_SPEC_REDIRECTS`. -/
def defaultMaxJobSpecRedirects : ℕ := 5

/-- A download of a URI. -/
abbrev UriFetcher := Utf16 → Log → Except JobSpecError (List UInt8) × Log

/-- A safe integer that is not negative. -/
def safeNatural (n : Number) : Option ℕ :=
  (n.safeInteger?.filter (0 ≤ ·)).map Int.toNat

/-- The redirects allowed: five unless the options say otherwise. -/
def redirectCap : Option Number → Except JobSpecError ℕ
  | none => .ok defaultMaxJobSpecRedirects
  | some n =>
    demand (safeNatural n) ⟨word "job-spec redirect cap must be a non-negative safe integer"⟩

/-- `createPublicUriFetcher`, on the transport of the runtime. -/
def createPublicUriFetcher (runtime : AddressRuntime) (net : Network) (maxBytes : Number)
    (maxRedirects : Option Number) : Except JobSpecError UriFetcher := do
  let cap ← demand ((safeNatural maxBytes).filter (0 < ·))
    ⟨word "job-spec byte cap must be a positive safe integer"⟩
  let redirects ← redirectCap maxRedirects
  .ok fun uri log =>
    match net.parseUrl uri none with
    | none => (.error ⟨word "job-spec URI is not a valid URL: " ++ JsonValue.quote uri⟩, log)
    | some current => followRedirects runtime net cap redirects redirects current log

/-! ## From the pointer to the content -/

/-- `TaskJobSpec`, as far as the worker reads it. -/
structure TaskJobSpecPointer where
  jobSpecHash : List UInt8
  jobSpecUri : Utf16
deriving DecidableEq

/-- `VerifiedJobSpec`. -/
structure VerifiedJobSpec where
  jobSpecHash : List UInt8
  jobSpecUri : Utf16
  content : List UInt8
deriving DecidableEq

/-- `validateAgencJobSpecUri`. -/
def validateAgencJobSpecUri (task : Utf16) (url : Url) (expectedHashHex : Utf16) :
    Except JobSpecError Unit := do
  require (url.username = [] ∧ url.password = [] ∧ url.port = [] ∧ url.search = [] ∧ url.hash = [])
    (taskError task (word ("malformed AgenC job-spec URI — credentials, ports, query, and " ++
      "fragment are forbidden")))
  require (url.hostname = word "job-spec")
    (taskError task (word "malformed AgenC job-spec URI — expected host job-spec"))
  let path := word "/sha256/"
  require (url.pathname.take path.length = path ∧ isHashHex (url.pathname.drop path.length) = true)
    (taskError task (word
      "malformed AgenC job-spec URI — expected /sha256/<64 lowercase hex>"))
  require (url.pathname.drop path.length = expectedHashHex)
    (taskError task (word ("AgenC URI hash does not match the on-chain commitment " ++
      "(expected ") ++ expectedHashHex ++ word ", got " ++ url.pathname.drop path.length ++
      word ")"))

/-- What the caller supplies: the account of the pointer as it is read and decoded, and the fetchers
injected, which fail with a `JobSpecError` or with the message of another error. -/
structure JobSpecOptions where
  task : Utf16
  readJobSpecAccount : Option (Except JobSpecError TaskJobSpecPointer)
  fetchUri : Option (Utf16 → Except (JobSpecError ⊕ Utf16) (List UInt8))
  resolveAgencUri : Option (Utf16 → Except (JobSpecError ⊕ Utf16) (List UInt8))
  maxBytes : Option Number

/-- `DEFAULT_MAX_JOB_SPEC_BYTES`. -/
def defaultMaxJobSpecBytes : ℕ := 64 * 1024

/-- The bytes an injected fetcher returns; an error that is no `JobSpecError` is told with the
task. -/
def injected (task context : Utf16) (outcome : Except (JobSpecError ⊕ Utf16) (List UInt8)) :
    Except JobSpecError (List UInt8) :=
  outcome.mapError (Sum.elim id fun message => taskError task (context ++ message))

/-- The envelope behind a URI: `agenc:` by the trusted resolver, `http(s):` by the fetcher. -/
def fetchEnvelope (runtime : AddressRuntime) (net : Network) (options : JobSpecOptions)
    (maxBytes : Number) (pointer : TaskJobSpecPointer) (url : Url) (log : Log) :
    Except JobSpecError (List UInt8) × Log :=
  if url.protocol = word "agenc:" then
    (do
      validateAgencJobSpecUri options.task url (hexText pointer.jobSpecHash)
      let resolve ← demand options.resolveAgencUri (taskError options.task
        (word "no trusted AgenC URI resolver is configured; refusing to claim"))
      injected options.task (word "AgenC URI job-spec resolution failed: ")
        (resolve pointer.jobSpecUri),
      log)
  else if url.protocol = word "http:" ∨ url.protocol = word "https:" then
    match validateFetchUrl url with
    | .error e => (.error e, log)
    | .ok () =>
      match options.fetchUri with
      | some fetch =>
        (injected options.task (word "job-spec download failed: ") (fetch pointer.jobSpecUri), log)
      | none =>
        match createPublicUriFetcher runtime net maxBytes none with
        | .error e => (.error e, log)
        | .ok fetch => fetch pointer.jobSpecUri log
  else
    (.error (taskError options.task (word "refusing job-spec URI scheme " ++
      url.protocol.dropLast ++
      word " — only public http(s) or a resolver-backed AgenC URI is supported")), log)

/-- The checks of the pointer: its URL, if the account is there, decodes and pins a hash. -/
def readPointer (net : Network) (options : JobSpecOptions) :
    Except JobSpecError (TaskJobSpecPointer × Url) := do
  let account ← demand options.readJobSpecAccount
    (taskError options.task (word "no TaskJobSpec pinned (nothing to claim)"))
  let pointer ← account
  require (¬(pointer.jobSpecHash.all (· == 0)) = true)
    (taskError options.task (word "job-spec hash is all zeros (unpinned)"))
  let url ← demand (net.parseUrl pointer.jobSpecUri none) (taskError options.task
    (word "job-spec URI is not a valid URI: " ++ JsonValue.quote pointer.jobSpecUri))
  .ok (pointer, url)

/-- `fetchAndVerifyJobSpec`. -/
def fetchAndVerifyJobSpec (runtime : AddressRuntime) (json : JobSpecRuntime) (net : Network)
    (options : JobSpecOptions) (log : Log) : Except JobSpecError VerifiedJobSpec × Log :=
  let maxBytes := options.maxBytes.getD (Number.ofNat defaultMaxJobSpecBytes)
  match (safeNatural maxBytes).filter (0 < ·) with
  | none => (.error ⟨word "job-spec byte cap must be a positive safe integer"⟩, log)
  | some cap =>
    match readPointer net options with
    | .error e => (.error e, log)
    | .ok (pointer, url) =>
      match fetchEnvelope runtime net options maxBytes pointer url log with
      | (.error e, log) => (.error e, log)
      | (.ok envelopeBytes, log) =>
        (do
          require (envelopeBytes.length ≤ cap) (taskError options.task
            (word "job spec exceeds the " ++ countText cap ++ word "-byte cap"))
          let content ← verifyJobSpecEnvelope json options.task envelopeBytes pointer.jobSpecHash
          .ok ⟨pointer.jobSpecHash, pointer.jobSpecUri, content⟩, log)

end AgencCoordination.Worker

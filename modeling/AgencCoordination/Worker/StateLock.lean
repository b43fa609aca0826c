import AgencCoordination.Foundations.Run
import Mathlib.Logic.Function.Basic

/-!
# The lock of a worker's state directory

`acquireStateLock` and the closure it returns, one system call at a time. A call of
`acquireStateLock` links a private inode to `.active.lock`; when the name is taken by a process
that no longer runs, it first takes the reaper marker `.active.lock.reap.<nonce>` of that stale
lock, unlinks the lock, releases the marker and tries again, eight times at most. A marker whose
own process no longer runs is unlinked by the next contender.

* **`LockState`** — what the processes share: the process table, the two kinds of names in the
  directory, the bodies of the inodes, and for every call the system call it makes next.
* **`LockState.proceed`** — that system call, with everything the code does up to the next one.
* **`LockState.perform`** — the steps of the system: a process starts or dies, calls
  `acquireStateLock`, calls the closure, or makes its next system call.

The publication files and the observation links carry the pid, the nonce of the call and the
attempt in their names, so no other call names them: a call keeps their inodes in its own
program counter, and creating, reading and unlinking them is no step. An inode that is observed
stays linked, so its number is not used again; inodes are never reused here.
-/

namespace AgencCoordination.Worker

abbrev Pid := ℕ
abbrev Inode := ℕ

/-- The 128 random bits of a call or of a marker; two draws never agree. -/
abbrev Nonce := ℕ

/-- The boot id and the start time of a process: two processes of one pid differ in it. -/
abbrev ProcessIdentity := ℕ

/-! ## Bodies of the files -/

/-- The JSON body of an inode: a lock, or a reaper marker where it names a target. -/
structure LockBody where
  pid : Pid
  nonce : Nonce
  targetNonce : Option Nonce
  identity : Option ProcessIdentity
  deriving DecidableEq

instance : Inhabited LockBody := ⟨⟨0, 0, none, none⟩⟩

structure LockOwner where
  pid : Pid
  nonce : Nonce
  /-- `bootId` and `processStartTime`, both there or both absent. -/
  identity : Option ProcessIdentity
  deriving DecidableEq

structure ReaperOwner extends LockOwner where
  targetNonce : Nonce
  deriving DecidableEq

/-- A lock has exactly the keys of a lock: the body of a marker is refused. -/
def readLockOwner (body : LockBody) : Option LockOwner :=
  if body.targetNonce.isSome then none else some ⟨body.pid, body.nonce, body.identity⟩

/-- A marker without a target is a hard link to the stale lock itself, as earlier versions
left it. -/
def readReaperOwner (body : LockBody) : ReaperOwner where
  pid := body.pid
  nonce := body.nonce
  identity := body.identity
  targetNonce := body.targetNonce.getD body.nonce

/-- Whether the owner still runs: its pid does, and the identity of that process is the recorded
one. An identity that was not recorded, or that cannot be read now, is not held against it. -/
def processStillOwnsLock (running : Pid → Option ProcessIdentity) (readable : Bool)
    (owner : LockOwner) : Bool :=
  match running owner.pid with
  | none => false
  | some observed =>
    match owner.identity with
    | none => true
    | some expected => if readable then observed == expected else true

/-! ## Calls -/

/-- What a call carries while it reclaims the stale lock it observed: the attempt, the observed
inode, the nonce of the stale lock and the nonce of its own marker. -/
structure Reaping where
  attempt : ℕ
  observation : Inode
  target : Nonce
  nonce : Nonce
  deriving DecidableEq

/-- The system call that a call of `acquireStateLock`, or its closure, makes next. -/
inductive Pc where
  /-- `linkSync(publicationPath, lockPath)`. -/
  | publish (attempt : ℕ)
  /-- `fsyncDirectory` after the lock was published. -/
  | sync
  /-- The read of `lockPath` after that failed, and the unlink it leads to. -/
  | retract
  | retractUnlink
  /-- `linkSync(lockPath, observationPath)`. -/
  | observe (attempt : ℕ)
  /-- The read of the observation, and whether its owner still runs. -/
  | inspect (attempt : ℕ) (observation : Inode)
  /-- `linkSync(publicationPath, reaperPath)`. -/
  | mark (attempt : ℕ) (observation : Inode) (target : Nonce)
  /-- `fsyncDirectory` after the marker was published. -/
  | syncMark (r : Reaping)
  /-- `linkSync(reaperPath, observationPath)` in `acquireReaperMarker`. -/
  | observeMarker (attempt : ℕ) (target : Nonce)
  | inspectMarker (attempt : ℕ) (target : Nonce) (observation : Inode)
  /-- `sameFile(reaperPath, observationPath)`, and the unlink it leads to. -/
  | compareMarker (attempt : ℕ) (target : Nonce) (observation : Inode)
  | removeMarker (attempt : ℕ) (target : Nonce)
  /-- `sameFile(lockPath, observationPath)`, and the unlink it leads to. -/
  | compare (r : Reaping)
  | reclaim (r : Reaping)
  /-- The read and the unlink of `releaseReaperMarker`; then the next attempt, or the error. -/
  | unmark (target : Nonce) (nonce : Nonce) (resume : Option ℕ)
  | unlinkMarker (target : Nonce) (nonce : Nonce) (resume : Option ℕ)
  /-- `acquireStateLock` has returned its closure. -/
  | held
  /-- The read and the unlink of the closure. -/
  | release
  | releaseUnlink
  /-- The closure has returned. -/
  | released
  /-- An error was thrown. -/
  | failed
  deriving DecidableEq

/-- The call has returned from `acquireStateLock` and has not released the lock. -/
def Pc.holds : Pc → Bool
  | .held | .release | .releaseUnlink => true
  | _ => false

/-- A call of `acquireStateLock`: the process that makes it, what that process reads as its own
identity, and where the call is. -/
structure Call where
  pid : Pid
  process : ProcessIdentity
  identity : Option ProcessIdentity
  pc : Pc
  deriving DecidableEq

/-- The loop makes eight attempts. -/
def retry (attempt : ℕ) : Pc := if attempt + 1 < 8 then .publish (attempt + 1) else .failed

/-! ## The system -/

structure LockState where
  /-- The processes that run, by pid. -/
  running : Pid → Option ProcessIdentity
  /-- The inode at `.active.lock`. -/
  lock : Option Inode
  /-- The inodes at `.active.lock.reap.<nonce>`. -/
  reaper : Nonce → Option Inode
  body : Inode → LockBody
  /-- The inodes from here on have not been written. -/
  inodes : ℕ
  /-- The nonces and identities from here on have not been drawn. -/
  fresh : ℕ
  /-- The calls, by their nonce. -/
  calls : Nonce → Option Call

/-- How the parts of a system call turned out that the state does not decide: whether
`fsyncDirectory` went through, and whether the identity of a process could be read. -/
structure SystemReply where
  synced : Bool := true
  readable : Bool := true
  deriving DecidableEq

namespace LockState

/-- A new inode. -/
def write (s : LockState) (b : LockBody) : LockState :=
  { s with body := Function.update s.body s.inodes b, inodes := s.inodes + 1 }

/-- A new nonce or identity, which is the `fresh` of the state before. -/
def draw (s : LockState) : LockState := { s with fresh := s.fresh + 1 }

def setLock (s : LockState) (entry : Option Inode) : LockState := { s with lock := entry }

def setReaper (s : LockState) (target : Nonce) (entry : Option Inode) : LockState :=
  { s with reaper := Function.update s.reaper target entry }

def goto (s : LockState) (n : Nonce) (c : Call) (pc : Pc) : LockState :=
  { s with calls := Function.update s.calls n (some { c with pc := pc }) }

/-- The process of the call still runs. -/
def Live (s : LockState) (c : Call) : Prop := s.running c.pid = some c.process

instance (s : LockState) (c : Call) : Decidable (s.Live c) :=
  inferInstanceAs (Decidable (_ = _))

/-- Writes a private inode for the lock and links it to `lockPath`. -/
def publish (s : LockState) (n : Nonce) (c : Call) (attempt : ℕ) : LockState :=
  let written := s.write ⟨c.pid, n, none, c.identity⟩
  match s.lock with
  | none => (written.setLock (some s.inodes)).goto n c .sync
  | some _ => written.goto n c (.observe attempt)

/-- Reads the lock's file and goes on to unlink it where the nonce is the call's own; a read of
a missing file throws as well. -/
def readOwnLock (s : LockState) (n : Nonce) (c : Call) (own other : Pc) : LockState :=
  match s.lock.bind fun i => readLockOwner (s.body i) with
  | some current => s.goto n c (if current.nonce = n then own else other)
  | none => s.goto n c .failed

/-- Reads the observed lock. A live owner, or a file that is no lock, ends the call. -/
def inspect (s : LockState) (n : Nonce) (c : Call) (readable : Bool) (attempt : ℕ)
    (observation : Inode) : LockState :=
  match readLockOwner (s.body observation) with
  | none => s.goto n c .failed
  | some existing =>
    if processStillOwnsLock s.running readable existing then s.goto n c .failed
    else s.goto n c (.mark attempt observation existing.nonce)

/-- Writes a private inode for the marker and links it to `reaperPath`. -/
def mark (s : LockState) (n : Nonce) (c : Call) (readable : Bool) (attempt : ℕ)
    (observation : Inode) (target : Nonce) : LockState :=
  let nonce := s.fresh
  let written := s.draw.write
    ⟨c.pid, nonce, some target, if readable then some c.process else none⟩
  match s.reaper target with
  | none =>
    (written.setReaper target (some s.inodes)).goto n c
      (.syncMark ⟨attempt, observation, target, nonce⟩)
  | some _ => written.goto n c (.observeMarker attempt target)

/-- Reads the observed marker: it must target the same lock, and its process must be gone. -/
def inspectMarker (s : LockState) (n : Nonce) (c : Call) (readable : Bool) (attempt : ℕ)
    (target : Nonce) (observation : Inode) : LockState :=
  let incumbent := readReaperOwner (s.body observation)
  if incumbent.targetNonce ≠ target then s.goto n c .failed
  else if processStillOwnsLock s.running readable incumbent.toLockOwner then s.goto n c .failed
  else s.goto n c (.compareMarker attempt target observation)

/-- The system call the program counter names, with what follows it up to the next one. -/
def proceed (s : LockState) (n : Nonce) (c : Call) (o : SystemReply) : Option LockState :=
  match c.pc with
  | .publish attempt => some (s.publish n c attempt)
  | .sync => some (s.goto n c (if o.synced then .held else .retract))
  | .retract => some (s.readOwnLock n c .retractUnlink .failed)
  | .retractUnlink => some ((s.goto n c .failed).setLock none)
  | .observe attempt =>
    match s.lock with
    | none => some (s.goto n c (retry attempt))
    | some i => some (s.goto n c (.inspect attempt i))
  | .inspect attempt i => some (s.inspect n c o.readable attempt i)
  | .mark attempt i target => some (s.mark n c o.readable attempt i target)
  | .syncMark r =>
    some (s.goto n c (if o.synced then .compare r else .unmark r.target r.nonce none))
  | .observeMarker attempt target =>
    match s.reaper target with
    | none => some (s.goto n c (retry attempt))
    | some i => some (s.goto n c (.inspectMarker attempt target i))
  | .inspectMarker attempt target i => some (s.inspectMarker n c o.readable attempt target i)
  | .compareMarker attempt target i =>
    match s.reaper target with
    -- A missing file makes `statSync` throw, and nothing catches it here.
    | none => some (s.goto n c .failed)
    | some j => some (s.goto n c (if j = i then .removeMarker attempt target else retry attempt))
  | .removeMarker attempt target =>
    match s.reaper target with
    | none => some (s.goto n c .failed)
    | some _ =>
      some ((s.goto n c (if o.synced then retry attempt else .failed)).setReaper target none)
  | .compare r =>
    some (s.goto n c
      (if s.lock = some r.observation then .reclaim r else .unmark r.target r.nonce r.attempt))
  | .reclaim r => some ((s.goto n c (.unmark r.target r.nonce r.attempt)).setLock none)
  | .unmark target nonce resume =>
    match s.reaper target with
    -- The error of the read carries no code, so `ENOENT` is thrown on.
    | none => some (s.goto n c .failed)
    | some i =>
      if (readReaperOwner (s.body i)).nonce = nonce then
        some (s.goto n c (.unlinkMarker target nonce resume))
      else some (s.goto n c (if o.synced then (resume.map retry).getD .failed else .failed))
  | .unlinkMarker target _ resume =>
    some ((s.goto n c (if o.synced then (resume.map retry).getD .failed else .failed)).setReaper
      target none)
  | .release => some (s.readOwnLock n c .releaseUnlink .released)
  | .releaseUnlink => some ((s.goto n c .released).setLock none)
  | .held | .released | .failed => none

end LockState

/-- The steps of the system. -/
inductive LockLabel where
  /-- A process starts under a pid that is free. -/
  | spawn (pid : Pid)
  /-- A process ends, wherever it is. -/
  | crash (pid : Pid)
  /-- A process calls `acquireStateLock`; `readable` when it can read its own identity. -/
  | call (pid : Pid) (readable : Bool)
  /-- The call makes its next system call. -/
  | advance (n : Nonce) (o : SystemReply)
  /-- The holder calls the closure. -/
  | release (n : Nonce)
  deriving DecidableEq

/-- One step; `none` where the step is not possible. -/
def LockState.perform (s : LockState) : LockLabel → Option LockState
  | .spawn pid =>
    match s.running pid with
    | some _ => none
    | none =>
      some { s.draw with running := Function.update s.running pid (some s.fresh) }
  | .crash pid => some { s with running := Function.update s.running pid none }
  | .call pid readable => do
    let process ← s.running pid
    let c : Call := ⟨pid, process, if readable then some process else none, .publish 0⟩
    some { s.draw with calls := Function.update s.calls s.fresh (some c) }
  | .advance n o => do
    let c ← s.calls n
    if s.Live c then s.proceed n c o else none
  | .release n => do
    let c ← s.calls n
    if s.Live c ∧ c.pc = .held then some (s.goto n c .release) else none

/-- The system as a transition relation. -/
def LockStep (s : LockState) (l : LockLabel) (s' : LockState) : Prop := s.perform l = some s'

/-- An empty directory and no process. -/
def emptyDirectory : LockState where
  running := fun _ => none
  lock := none
  reaper := fun _ => none
  body := fun _ => default
  inodes := 0
  fresh := 0
  calls := fun _ => none

end AgencCoordination.Worker

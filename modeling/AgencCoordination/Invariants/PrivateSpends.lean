import AgencCoordination.Program.PrivateCompletion
import AgencCoordination.Effects.Market

/-!
# One proof, one payment

A private completion is paid for a journal. The journal is read at fixed offsets, checked
against the task, the signer and the active image, and spends the accounts of its binding and
its nullifier, which the instruction has to initialize.

* **`parseAndValidateJournal_serialize`, `serializeJournal_of_parse`** — the program's reader
  inverts the guest's writer.
* **`routerVerifyData_inj`** — the verify call's bytes determine seal, image and digest.
* **`executePrivateCompletion_spec`** — what a completion has checked, and what it spends.
* **`private_completion_pays_once`** — in every run, every completion is proved, no two share a
  binding or a nullifier, and a journal pays at most once.
-/

namespace AgencCoordination

open Foundations

/-! ## The journal -/

/-- The fields the guest has written, as the program reads them. -/
def ParsedJournal.fields (p : ParsedJournal) : JournalFields :=
  ⟨p.taskPda, p.agentAuthority, p.constraintHash, p.outputCommitment, p.binding, p.nullifier⟩

/-- The program's view of the guest's fields. -/
def JournalFields.parsed (f : JournalFields) : ParsedJournal :=
  ⟨f.taskPda, f.agentAuthority, f.constraintHash, f.outputCommitment, f.binding, f.nullifier⟩

/-- The conditions on a journal's fields: a commitment, and seeds of enough entropy. -/
structure JournalFields.Usable (f : JournalFields) : Prop where
  outputCommitment : f.outputCommitment ≠ zeroHash
  binding : minDistinctBytes ≤ f.binding.data.toFinset.card
  nullifier : minDistinctBytes ≤ f.nullifier.data.toFinset.card

theorem serializeJournal_eq (f : JournalFields) :
    serializeJournal f = f.taskPda.data ++ (f.agentAuthority.data ++ (f.constraintHash.data ++
      (f.outputCommitment.data ++ (f.binding.data ++ (f.nullifier.data ++ []))))) := rfl

theorem serializeJournal_length (f : JournalFields) :
    (serializeJournal f).length = risc0JournalLen := by
  rw [serializeJournal_eq]
  simp only [List.length_append, Bytes.length_eq, List.length_nil]
  rfl

theorem copyField_eq_ok {field : String} {value : List UInt8} {b : Bytes32}
    (h : copyField field value = .ok b) : b.data = value := by
  unfold copyField at h
  split at h
  · obtain rfl := Except.ok.inj h
    rfl
  · cases h

/-- The guest writes the slices its fields were taken from. -/
theorem serializeJournal_tryFromSlices {task authority constraint commitment binding
    nullifier : List UInt8} {f : JournalFields}
    (h : JournalFields.tryFromSlices task authority constraint commitment binding nullifier =
      .ok f) :
    serializeJournal f =
      task ++ (authority ++ (constraint ++ (commitment ++ (binding ++ nullifier)))) := by
  simp only [JournalFields.tryFromSlices, bind_eq_ok] at h
  obtain ⟨_, htask, _, hauthority, _, hconstraint, _, hcommitment, _, hbinding, _, hnullifier,
    h⟩ := h
  obtain rfl := Except.ok.inj h
  rw [serializeJournal_eq, copyField_eq_ok htask, copyField_eq_ok hauthority,
    copyField_eq_ok hconstraint, copyField_eq_ok hcommitment, copyField_eq_ok hbinding,
    copyField_eq_ok hnullifier, List.append_nil]

theorem hasSufficientByteDiversity_iff (value : Bytes32) :
    hasSufficientByteDiversity value = true ↔
      minDistinctBytes ≤ value.data.toFinset.card :=
  Bytes.distinctAtLeast_iff (by decide)

/-- A seed of enough entropy is not zero. -/
theorem ne_zeroHash_of_diverse {value : Bytes32}
    (h : minDistinctBytes ≤ value.data.toFinset.card) : value ≠ zeroHash := by
  intro hzero
  have hle : value.data.toFinset.card ≤ 1 := by
    rw [hzero]
    exact Bytes.fill_card_le hashSize 0
  have hmin : minDistinctBytes = 8 := rfl
  omega

/-- Reading one field of a journal, at the offset of its place. -/
theorem readJournalField_eq_ok {journal : List UInt8} {start : ℕ} {b : Bytes32} :
    readJournalField journal start = .ok b ↔ Bytes.slice? journal start hashSize = some b :=
  demand_eq_ok

/-- The reader finds every field where the writer put it. -/
theorem readJournalField_serialize (f : JournalFields) :
    readJournalField (serializeJournal f) journalTaskPdaOffset = .ok f.taskPda ∧
    readJournalField (serializeJournal f) journalAuthorityOffset = .ok f.agentAuthority ∧
    readJournalField (serializeJournal f) journalConstraintOffset = .ok f.constraintHash ∧
    readJournalField (serializeJournal f) journalCommitmentOffset = .ok f.outputCommitment ∧
    readJournalField (serializeJournal f) journalBindingOffset = .ok f.binding ∧
    readJournalField (serializeJournal f) journalNullifierOffset = .ok f.nullifier := by
  simp only [readJournalField_eq_ok, serializeJournal_eq]
  have hauthority : journalAuthorityOffset = hashSize + 0 := rfl
  have hconstraint : journalConstraintOffset = hashSize + (hashSize + 0) := rfl
  have hcommitment : journalCommitmentOffset = hashSize + (hashSize + (hashSize + 0)) := rfl
  have hbinding : journalBindingOffset =
      hashSize + (hashSize + (hashSize + (hashSize + 0))) := rfl
  have hnullifier : journalNullifierOffset =
      hashSize + (hashSize + (hashSize + (hashSize + (hashSize + 0)))) := rfl
  rw [hauthority, hconstraint, hcommitment, hbinding, hnullifier]
  simp only [Bytes.slice?_skip]
  exact ⟨Bytes.slice?_append _, Bytes.slice?_append _, Bytes.slice?_append _,
    Bytes.slice?_append _, Bytes.slice?_append _, Bytes.slice?_append _⟩

/-- What the reader accepts: the six fields, each read at its offset and usable. -/
theorem parseAndValidateJournal_eq_ok {journal : List UInt8} {p : ParsedJournal} :
    parseAndValidateJournal journal = .ok p ↔
      journal.length = risc0JournalLen ∧
      (readJournalField journal journalTaskPdaOffset = .ok p.taskPda ∧
        readJournalField journal journalAuthorityOffset = .ok p.agentAuthority ∧
        readJournalField journal journalConstraintOffset = .ok p.constraintHash ∧
        readJournalField journal journalCommitmentOffset = .ok p.outputCommitment ∧
        readJournalField journal journalBindingOffset = .ok p.binding ∧
        readJournalField journal journalNullifierOffset = .ok p.nullifier) ∧
      p.fields.Usable := by
  unfold parseAndValidateJournal
  simp only [bind_eq_ok, require_eq_ok, hasSufficientByteDiversity_iff]
  constructor
  · rintro ⟨_, hlen, taskPda, htask, authority, hauthority, constraint, hconstraint, commitment,
      hcommitment, binding, hbinding, nullifier, hnullifier, _, hnz, _, -, _, -, _, hdiverse, _,
      hdiverse', h⟩
    obtain rfl := Except.ok.inj h
    exact ⟨hlen, ⟨htask, hauthority, hconstraint, hcommitment, hbinding, hnullifier⟩,
      ⟨hnz, hdiverse, hdiverse'⟩⟩
  · rintro ⟨hlen, ⟨htask, hauthority, hconstraint, hcommitment, hbinding, hnullifier⟩, husable⟩
    exact ⟨(), hlen, _, htask, _, hauthority, _, hconstraint, _, hcommitment, _, hbinding, _,
      hnullifier, (), husable.outputCommitment, (), ne_zeroHash_of_diverse husable.binding, (),
      ne_zeroHash_of_diverse husable.nullifier, (), husable.binding, (), husable.nullifier, rfl⟩

/-- The reader accepts what the guest writes from usable fields, and returns them. -/
theorem parseAndValidateJournal_serialize {f : JournalFields} (hf : f.Usable) :
    parseAndValidateJournal (serializeJournal f) = .ok f.parsed :=
  parseAndValidateJournal_eq_ok.mpr
    ⟨serializeJournal_length f, readJournalField_serialize f, hf⟩

/-- What the reader accepts is what the guest writes from the fields it returns. -/
theorem serializeJournal_of_parse {journal : List UInt8} {p : ParsedJournal}
    (h : parseAndValidateJournal journal = .ok p) : serializeJournal p.fields = journal := by
  obtain ⟨hlen, ⟨htask, hauthority, hconstraint, hcommitment, hbinding, hnullifier⟩, -⟩ :=
    parseAndValidateJournal_eq_ok.mp h
  simp only [readJournalField_eq_ok] at htask hauthority hconstraint
  simp only [readJournalField_eq_ok] at hcommitment hbinding hnullifier
  -- each read is followed by the next one, and the last by the end of the journal
  have h₀ := Bytes.slice?_eq_some htask
  have h₁ := Bytes.slice?_eq_some hauthority
  have h₂ := Bytes.slice?_eq_some hconstraint
  have h₃ := Bytes.slice?_eq_some hcommitment
  have h₄ := Bytes.slice?_eq_some hbinding
  have h₅ := Bytes.slice?_eq_some hnullifier
  have hend : journal.drop (journalNullifierOffset + hashSize) = [] :=
    List.drop_eq_nil_of_le (by rw [hlen]; decide)
  rw [hend] at h₅
  have h₄ : journal.drop journalBindingOffset = p.binding.data ++
      journal.drop journalNullifierOffset := h₄
  have h₃ : journal.drop journalCommitmentOffset = p.outputCommitment.data ++
      journal.drop journalBindingOffset := h₃
  have h₂ : journal.drop journalConstraintOffset = p.constraintHash.data ++
      journal.drop journalCommitmentOffset := h₂
  have h₁ : journal.drop journalAuthorityOffset = p.agentAuthority.data ++
      journal.drop journalConstraintOffset := h₁
  have h₀ : journal = p.taskPda.data ++ journal.drop journalAuthorityOffset := h₀
  calc serializeJournal p.fields
      = p.taskPda.data ++ (p.agentAuthority.data ++ (p.constraintHash.data ++
          (p.outputCommitment.data ++ (p.binding.data ++ (p.nullifier.data ++ []))))) :=
        serializeJournal_eq _
    _ = p.taskPda.data ++ journal.drop journalAuthorityOffset := by
        rw [← h₅, ← h₄, ← h₃, ← h₂, ← h₁]
    _ = journal := h₀.symm

/-! ## The verify call -/

/-- The bytes of the verify call determine the seal, the image and the digest. -/
theorem routerVerifyData_inj {s s' : Risc0Seal} {image image' digest digest' : Bytes32}
    (h : routerVerifyData s image digest = routerVerifyData s' image' digest') :
    s = s' ∧ image = image' ∧ digest = digest' := by
  simp only [routerVerifyData, appendRouterVerifyArgs, List.append_assoc] at h
  have h := List.append_cancel_left h
  obtain ⟨hselector, h⟩ := Bytes.append_inj h
  obtain ⟨hpiA, h⟩ := Bytes.append_inj h
  obtain ⟨hpiB, h⟩ := Bytes.append_inj h
  obtain ⟨hpiC, h⟩ := Bytes.append_inj h
  obtain ⟨himage, hdigest⟩ := Bytes.append_inj h
  exact ⟨Risc0Seal.ext hselector (Risc0Groth16Proof.ext hpiA hpiB hpiC), himage,
    Bytes.ext hdigest⟩

/-- The bytes a seal is decoded from are its parts, in order. -/
theorem decodeSealBytes_eq_ok {sealBytes : List UInt8} {s : Risc0Seal}
    (h : decodeSealBytes sealBytes = .ok s) :
    sealBytes = s.selector.data ++ (s.proof.piA.data ++ (s.proof.piB.data ++ s.proof.piC.data)) := by
  simp only [decodeSealBytes, bind_eq_ok, require_eq_ok, demand_eq_ok] at h
  obtain ⟨_, hlen, selector, hselector, piA, hpiA, piB, hpiB, piC, hpiC, h⟩ := h
  obtain rfl := Except.ok.inj h
  have h₀ := Bytes.slice?_eq_some hselector
  have h₁ := Bytes.slice?_eq_some hpiA
  have h₂ := Bytes.slice?_eq_some hpiB
  have h₃ := Bytes.slice?_eq_some hpiC
  have hend : sealBytes.drop (risc0SelectorLen + 64 + 128 + 64) = [] :=
    List.drop_eq_nil_of_le (by rw [hlen]; decide)
  rw [hend, List.append_nil] at h₃
  have h₀ : sealBytes = selector.data ++ sealBytes.drop risc0SelectorLen := by
    rw [Nat.zero_add] at h₀
    exact h₀
  rw [h₃] at h₂
  rw [h₂] at h₁
  rw [h₁] at h₀
  exact h₀

/-- Two seals whose bytes were decoded are the same seal only if their bytes agree. -/
theorem decodeSealBytes_inj {b b' : List UInt8} {s : Risc0Seal}
    (h : decodeSealBytes b = .ok s) (h' : decodeSealBytes b' = .ok s) : b = b' := by
  rw [decodeSealBytes_eq_ok h, decodeSealBytes_eq_ok h']

/-! ## One completion -/

/-- What a completion has checked about its proof: the journal is that of the task, the signer
and the active image, its seal is valid for it, and its seeds are unspent. -/
structure CompletionProved (stack : VerifierStack) (valid : Risc0Seal → Bytes32 → Bytes32 → Prop)
    (m : PrivateMarket) (key signer : Pubkey) (proof : PrivateCompletionPayload)
    (p : ParsedJournal) : Prop where
  journal : parseAndValidateJournal proof.journal = .ok p
  task : p.taskPda = toBytes key
  worker : p.agentAuthority = toBytes signer
  constraint : ∃ acc, m.market.world.tasks.lookup key = some acc ∧
    p.constraintHash = toBytes acc.task.constraintHash
  proved : ∃ zkConfig risc0Seal, m.zkConfig = some zkConfig ∧
    proof.imageId = zkConfig.activeImageId ∧ decodeSealBytes proof.sealBytes = .ok risc0Seal ∧
    valid risc0Seal zkConfig.activeImageId (stack.hashv proof.journal)
  unspentBinding : m.bindingSpends.lookup (stack.bindingSpendAddress p.binding) = none
  unspentNullifier : m.nullifierSpends.lookup (stack.nullifierSpendAddress p.nullifier) = none

/-- The router accepts a verify call only for a valid seal of the image and the digest. -/
def RouterSound (stack : VerifierStack) (valid : Risc0Seal → Bytes32 → Bytes32 → Prop) : Prop :=
  ∀ verifierEntry risc0Seal imageId digest,
    stack.routerAccepts verifierEntry (buildRouterVerifyIx stack risc0Seal imageId digest) = true →
      valid risc0Seal imageId digest

theorem decodePrivateCompletionPayload_eq_ok {stack : VerifierStack}
    {proof : PrivateCompletionPayload} {d : DecodedPrivateProof}
    (h : decodePrivateCompletionPayload stack proof = .ok d) :
    decodeSealBytes proof.sealBytes = .ok d.risc0Seal ∧
      parseAndValidateJournal proof.journal = .ok d.parsedJournal ∧
      d.journalDigest = stack.hashv proof.journal := by
  simp only [decodePrivateCompletionPayload, bind_eq_ok, require_eq_ok] at h
  obtain ⟨_, -, risc0Seal, hseal, _, -, parsed, hparsed, h⟩ := h
  obtain rfl := Except.ok.inj h
  exact ⟨hseal, hparsed, rfl⟩

/-- The call that is sent is the one of the decoded seal, the payload's image and the digest. -/
theorem invokeRouterVerification_eq_ok {stack : VerifierStack} {verifierEntry : List UInt8}
    {proof : PrivateCompletionPayload} {d : DecodedPrivateProof}
    (h : invokeRouterVerification stack verifierEntry proof d = .ok ()) :
    stack.routerAccepts verifierEntry
      (buildRouterVerifyIx stack d.risc0Seal proof.imageId d.journalDigest) = true := by
  simp only [invokeRouterVerification, buildAndValidateRouterVerifyIx, bind_eq_ok,
    require_eq_ok] at h
  obtain ⟨_, -, ix, ⟨_, -, _, -, hix⟩, haccepts⟩ := h
  obtain rfl := Except.ok.inj hix
  exact haccepts

theorem validateParsedJournal_eq_ok {task : Task} {taskKey authority : Pubkey}
    {zkConfig : ZkConfig} {proof : PrivateCompletionPayload} {p : ParsedJournal}
    (h : validateParsedJournal task taskKey authority zkConfig proof p = .ok ()) :
    p.taskPda = toBytes taskKey ∧ p.agentAuthority = toBytes authority ∧
      p.constraintHash = toBytes task.constraintHash ∧ p.binding = proof.bindingSeed ∧
      p.nullifier = proof.nullifierSeed ∧ proof.imageId = zkConfig.activeImageId := by
  simp only [validateParsedJournal, bind_eq_ok, require_eq_ok] at h
  obtain ⟨_, htask, _, hauthority, _, hconstraint, _, hbinding, _, hnullifier, himage⟩ := h
  exact ⟨htask, hauthority, hconstraint, hbinding, hnullifier, himage⟩

/-- The handler pays for a proof it has decoded, checked and had verified. -/
theorem completeTaskPrivate_spec {stack : VerifierStack} {verifierEntry : List UInt8}
    {zkConfig : ZkConfig} {c c' : TaskContext} {signer : Pubkey} {taskId : ℕ}
    {proof : PrivateCompletionPayload} {d : DecodedPrivateProof}
    (h : completeTaskPrivate stack verifierEntry zkConfig c signer taskId proof = .ok (c', d)) :
    decodePrivateCompletionPayload stack proof = .ok d ∧
      validateParsedJournal c.task c.key signer zkConfig proof d.parsedJournal = .ok () ∧
      invokeRouterVerification stack verifierEntry proof d = .ok () := by
  simp only [completeTaskPrivate, bind_eq_ok, demand_eq_ok] at h
  obtain ⟨claim, -, d', hdecoded, _, hinputs, _, hrouter, price, -, c₁, -, c₂, -, c₃, -, h⟩ := h
  obtain ⟨-, rfl⟩ := Prod.mk.inj (Except.ok.inj h)
  simp only [validateCompletionInputs, bind_eq_ok] at hinputs
  obtain ⟨_, -, _, -, _, -, _, -, _, -, _, -, _, -, hjournal⟩ := hinputs
  exact ⟨hdecoded, hjournal, hrouter⟩

/-- A completion has proved its journal and leaves both of its seeds spent. -/
theorem executePrivateCompletion_spec {stack : VerifierStack}
    {valid : Risc0Seal → Bytes32 → Bytes32 → Prop} (hrouter : RouterSound stack valid)
    {m m' : PrivateMarket} {key workerKey signer : Pubkey} {taskId : ℕ}
    {proof : PrivateCompletionPayload} {paid : List Transfer}
    (h : executePrivateCompletion stack m key workerKey signer taskId proof = .ok (m', paid)) :
    ∃ p, CompletionProved stack valid m key signer proof p ∧
      m'.bindingSpends = m.bindingSpends.insert (stack.bindingSpendAddress p.binding)
        ⟨p.binding, key, workerKey, m.market.world.sys.now⟩ ∧
      m'.nullifierSpends = m.nullifierSpends.insert (stack.nullifierSpendAddress p.nullifier)
        ⟨p.nullifier, key, workerKey, m.market.world.sys.now⟩ := by
  simp only [executePrivateCompletion, bind_eq_ok, demand_eq_ok, require_eq_ok] at h
  obtain ⟨acc, hacc, worker, -, _, -, zkConfig, hzk, _, hbinding, _, hnullifier, ⟨c, d⟩, hran, _,
    -, h⟩ := h
  obtain ⟨rfl, -⟩ := Prod.mk.inj (Except.ok.inj h)
  obtain ⟨hdecoded, hjournal, hverified⟩ := completeTaskPrivate_spec hran
  obtain ⟨hseal, hparsed, hdigest⟩ := decodePrivateCompletionPayload_eq_ok hdecoded
  obtain ⟨htask, hauthority, hconstraint, hb, hn, himage⟩ := validateParsedJournal_eq_ok hjournal
  have haccepts := invokeRouterVerification_eq_ok hverified
  have hvalid := hrouter _ _ _ _ haccepts
  rw [himage, hdigest] at hvalid
  rw [← hb] at hbinding
  rw [← hn] at hnullifier
  refine ⟨d.parsedJournal, ?_, ?_, ?_⟩
  · exact
      { journal := hparsed
        task := htask
        worker := hauthority
        constraint := ⟨acc, hacc, hconstraint⟩
        proved := ⟨zkConfig, d.risc0Seal, hzk, himage, hseal, hvalid⟩
        unspentBinding := hbinding
        unspentNullifier := hnullifier }
  · show m.bindingSpends.insert (stack.bindingSpendAddress proof.bindingSeed) _ = _
    rw [hb]
  · show m.nullifierSpends.insert (stack.nullifierSpendAddress proof.nullifierSeed) _ = _
    rw [hn]

/-! ## Runs -/

/-- One step of a run, with its payments. -/
abbrev PrivateEntry := Event PrivateMarket (PrivateInstruction × Payments)

/-- The journal a step has paid for. -/
def paidJournal (e : PrivateEntry) : Option ParsedJournal :=
  match e.label.1 with
  | .completeTaskPrivate _ _ _ _ proof => (parseAndValidateJournal proof.journal).toOption
  | _ => none

/-- Whether a step has paid for these journal bytes. -/
def paysFor (journal : List UInt8) (e : PrivateEntry) : Bool :=
  match e.label.1 with
  | .completeTaskPrivate _ _ _ _ proof => decide (proof.journal = journal)
  | _ => false

/-- The accounts of the binding and of the nullifier exist. -/
structure Spent (stack : VerifierStack) (p : ParsedJournal) (m : PrivateMarket) : Prop where
  binding : m.bindingSpends.lookup (stack.bindingSpendAddress p.binding) ≠ none
  nullifier : m.nullifierSpends.lookup (stack.nullifierSpendAddress p.nullifier) ≠ none

/-- Writing an entry removes none. -/
theorem lookup_insert_ne_none {V : Type} {s : Ledger Pubkey V} {k k' : Pubkey} {v : V}
    (h : s.lookup k ≠ none) : (s.insert k' v).lookup k ≠ none := by
  rw [Ledger.lookup_insert_eq_ite]
  split_ifs
  · exact Option.some_ne_none v
  · exact h

section Runs

variable {stack : VerifierStack} {valid : Risc0Seal → Bytes32 → Bytes32 → Prop}
  {start final m m' : PrivateMarket} {log : List PrivateEntry}
  {label : PrivateInstruction × Payments} {p : ParsedJournal}

/-- A completion step is a completion. -/
theorem PrivateStep.completes (h : PrivateStep stack m label m') {key workerKey signer : Pubkey}
    {taskId : ℕ} {proof : PrivateCompletionPayload}
    (hlabel : label.1 = .completeTaskPrivate key workerKey signer taskId proof) :
    executePrivateCompletion stack m key workerKey signer taskId proof =
      .ok (m', label.2.transfers) := by
  obtain ⟨i, payments⟩ := label
  cases hlabel
  unfold PrivateStep executePrivate at h
  simp only [bind_eq_ok] at h
  obtain ⟨⟨m₁, paid⟩, hran, h⟩ := h
  obtain ⟨rfl, rfl⟩ := Prod.mk.inj (Except.ok.inj h)
  exact hran

/-- Only a completion writes spend records. -/
theorem PrivateStep.spends (h : PrivateStep stack m label m') :
    (∃ key workerKey signer taskId proof,
      label.1 = .completeTaskPrivate key workerKey signer taskId proof) ∨
    (m'.bindingSpends = m.bindingSpends ∧ m'.nullifierSpends = m.nullifierSpends) := by
  obtain ⟨i, payments⟩ := label
  unfold PrivateStep executePrivate at h
  cases i with
  | market i =>
    simp only [bind_eq_ok] at h
    obtain ⟨_, -, h⟩ := h
    obtain ⟨rfl, -⟩ := Prod.mk.inj (Except.ok.inj h)
    exact .inr ⟨rfl, rfl⟩
  | initializeZkConfig signer signers =>
    simp only [bind_eq_ok] at h
    obtain ⟨_, -, h⟩ := h
    obtain ⟨rfl, -⟩ := Prod.mk.inj (Except.ok.inj h)
    exact .inr ⟨rfl, rfl⟩
  | updateZkImageId signers =>
    simp only [bind_eq_ok] at h
    obtain ⟨_, -, h⟩ := h
    obtain ⟨rfl, -⟩ := Prod.mk.inj (Except.ok.inj h)
    exact .inr ⟨rfl, rfl⟩
  | completeTaskPrivate key workerKey signer taskId proof =>
    exact .inl ⟨key, workerKey, signer, taskId, proof, rfl⟩
  | routerWrites verifierEntry =>
    obtain ⟨rfl, -⟩ := Prod.mk.inj (Except.ok.inj h)
    exact .inr ⟨rfl, rfl⟩

/-- What is spent stays spent. -/
theorem PrivateStep.spent (hrouter : RouterSound stack valid) (h : PrivateStep stack m label m')
    (hm : Spent stack p m) : Spent stack p m' := by
  rcases h.spends with ⟨key, workerKey, signer, taskId, proof, hlabel⟩ | ⟨hbinding, hnullifier⟩
  · obtain ⟨q, -, hbinding, hnullifier⟩ :=
      executePrivateCompletion_spec hrouter (h.completes hlabel)
    constructor
    · rw [hbinding]
      exact lookup_insert_ne_none hm.binding
    · rw [hnullifier]
      exact lookup_insert_ne_none hm.nullifier
  · constructor
    · rw [hbinding]
      exact hm.binding
    · rw [hnullifier]
      exact hm.nullifier

/-- The journal a step has paid for is proved before it, with its seeds unspent, and spent
after it. -/
theorem PrivateStep.paid (hrouter : RouterSound stack valid) {e : PrivateEntry}
    (h : PrivateStep stack e.before e.label e.after) (hp : paidJournal e = some p) :
    (∃ key signer proof, CompletionProved stack valid e.before key signer proof p) ∧
      Spent stack p e.after := by
  have hcompletion : ∃ key workerKey signer taskId proof,
      e.label.1 = .completeTaskPrivate key workerKey signer taskId proof := by
    unfold paidJournal at hp
    split at hp
    · rename_i key workerKey signer taskId proof hlabel
      exact ⟨key, workerKey, signer, taskId, proof, hlabel⟩
    · cases hp
  obtain ⟨key, workerKey, signer, taskId, proof, hlabel⟩ := hcompletion
  obtain ⟨q, hproved, hbinding, hnullifier⟩ :=
    executePrivateCompletion_spec hrouter (h.completes hlabel)
  have hq : paidJournal e = some q := by
    unfold paidJournal
    rw [hlabel]
    show (parseAndValidateJournal proof.journal).toOption = some q
    rw [hproved.journal]
    rfl
  obtain rfl : q = p := Option.some.inj (hq.symm.trans hp)
  refine ⟨⟨key, signer, proof, hproved⟩, ?_, ?_⟩
  · rw [hbinding, AList.lookup_insert]
    exact Option.some_ne_none _
  · rw [hnullifier, AList.lookup_insert]
    exact Option.some_ne_none _

/-- The journals paid for in a run are spent at its end, and no two share a seed. -/
theorem paidJournals_spent (hrouter : RouterSound stack valid)
    (hrun : Run (PrivateStep stack) start log final) :
    (∀ p ∈ log.filterMap paidJournal, Spent stack p final) ∧
      (log.filterMap paidJournal).Pairwise fun p q =>
        p.binding ≠ q.binding ∧ p.nullifier ≠ q.nullifier := by
  induction hrun with
  | refl => exact ⟨by simp, List.Pairwise.nil⟩
  | @snoc log s s' label _ hs ih =>
    obtain ⟨hspent, hpairwise⟩ := ih
    rw [List.filterMap_append]
    cases hpaid : paidJournal ⟨s, label, s'⟩ with
    | none =>
      have hnil : List.filterMap paidJournal [⟨s, label, s'⟩] = [] := by
        rw [List.filterMap_cons_none hpaid, List.filterMap_nil]
      rw [hnil, List.append_nil]
      exact ⟨fun p hp => hs.spent hrouter (hspent p hp), hpairwise⟩
    | some q =>
      have hone : List.filterMap paidJournal [⟨s, label, s'⟩] = [q] := by
        rw [List.filterMap_cons_some hpaid, List.filterMap_nil]
      obtain ⟨⟨key, signer, proof, hproved⟩, hq⟩ :=
        PrivateStep.paid (e := ⟨s, label, s'⟩) hrouter hs hpaid
      rw [hone]
      refine ⟨?_, List.pairwise_append.mpr ⟨hpairwise, List.pairwise_singleton _ _, ?_⟩⟩
      · intro p hp
        rcases List.mem_append.mp hp with hp | hp
        · exact hs.spent hrouter (hspent p hp)
        · rw [List.mem_singleton.mp hp]
          exact hq
      · -- an earlier journal's seeds are spent, those of this one were not
        intro p hp q' hq'
        rw [List.mem_singleton.mp hq']
        have hpspent := hspent p hp
        constructor
        · intro hsame
          exact hpspent.binding (by rw [hsame]; exact hproved.unspentBinding)
        · intro hsame
          exact hpspent.nullifier (by rw [hsame]; exact hproved.unspentNullifier)

/-- These journal bytes are paid for at most once: the payment spends their seeds. -/
theorem paysFor_countP_le_one (hrouter : RouterSound stack valid)
    (hrun : Run (PrivateStep stack) start log final) (journal : List UInt8) :
    log.countP (paysFor journal) ≤ 1 := by
  refine hrun.countP_le_one (I := fun _ => True)
    (Q := fun m => ∀ p ∈ (parseAndValidateJournal journal).toOption,
      m.bindingSpends.lookup (stack.bindingSpendAddress p.binding) ≠ none)
    (fun _ _ _ _ _ => trivial) ?_ ?_ trivial
  · intro e hs _ hpays
    have hcompletion : ∃ key workerKey signer taskId proof, proof.journal = journal ∧
        e.label.1 = .completeTaskPrivate key workerKey signer taskId proof := by
      unfold paysFor at hpays
      split at hpays
      · rename_i key workerKey signer taskId proof hlabel
        exact ⟨key, workerKey, signer, taskId, proof, of_decide_eq_true hpays, hlabel⟩
      · cases hpays
    obtain ⟨key, workerKey, signer, taskId, proof, rfl, hlabel⟩ := hcompletion
    obtain ⟨q, hproved, hbinding, -⟩ := executePrivateCompletion_spec hrouter (hs.completes hlabel)
    have hparsed : (parseAndValidateJournal proof.journal).toOption = some q := by
      rw [hproved.journal]
      rfl
    rw [hparsed]
    refine ⟨fun hspent => hspent q rfl hproved.unspentBinding, ?_⟩
    intro p hp
    obtain rfl := Option.some.inj hp
    rw [hbinding, AList.lookup_insert]
    exact Option.some_ne_none _
  · intro s label s' hs _ hspent p hp
    rcases hs.spends with ⟨key, workerKey, signer, taskId, proof, hlabel⟩ | ⟨hbinding, -⟩
    · obtain ⟨q, -, hbinding, -⟩ := executePrivateCompletion_spec hrouter (hs.completes hlabel)
      rw [hbinding]
      exact lookup_insert_ne_none (hspent p hp)
    · rw [hbinding]
      exact hspent p hp

/-- With a router that accepts only valid seals, and from whatever accounts a run starts: every
private completion has a proved journal for its task, signer and the active image, with both
seeds unspent; no two completions share a binding or a nullifier; and the same journal pays at
most once. The program's reader inverts the guest's writer, and the verify call's bytes
determine seal, image and digest. -/
theorem private_completion_pays_once (hrouter : RouterSound stack valid)
    (hrun : Run (PrivateStep stack) start log final) :
    (∀ e ∈ log, ∀ key workerKey signer taskId proof,
      e.label.1 = .completeTaskPrivate key workerKey signer taskId proof →
      ∃ p, paidJournal e = some p ∧ CompletionProved stack valid e.before key signer proof p) ∧
    ((log.filterMap paidJournal).Pairwise fun p q =>
      p.binding ≠ q.binding ∧ p.nullifier ≠ q.nullifier) ∧
    (∀ journal, log.countP (paysFor journal) ≤ 1) ∧
    (∀ journal p, parseAndValidateJournal journal = .ok p → serializeJournal p.fields = journal) ∧
    (∀ f : JournalFields, f.Usable → parseAndValidateJournal (serializeJournal f) = .ok f.parsed) ∧
    (∀ s s' image image' digest digest',
      (buildRouterVerifyIx stack s image digest).data =
        (buildRouterVerifyIx stack s' image' digest').data →
      s = s' ∧ image = image' ∧ digest = digest') := by
  refine ⟨?_, (paidJournals_spent hrouter hrun).2, paysFor_countP_le_one hrouter hrun, ?_, ?_, ?_⟩
  · intro e he key workerKey signer taskId proof hlabel
    obtain ⟨_, _, _, _, hs, _⟩ := hrun.split_mem he
    obtain ⟨p, hproved, -⟩ := executePrivateCompletion_spec hrouter (hs.completes hlabel)
    refine ⟨p, ?_, hproved⟩
    unfold paidJournal
    rw [hlabel]
    show (parseAndValidateJournal proof.journal).toOption = some p
    rw [hproved.journal]
    rfl
  · intro journal p h
    exact serializeJournal_of_parse h
  · intro f hf
    exact parseAndValidateJournal_serialize hf
  · intro s s' image image' digest digest' h
    exact routerVerifyData_inj h

end Runs

/-! ## A private completion -/

/-- The journal of the task `50`, its worker's wallet `101` and the constraint `9`. -/
def sampleJournal : JournalFields :=
  { taskPda := toBytes 50
    agentAuthority := toBytes 101
    constraintHash := toBytes 9
    outputCommitment := toBytes 5
    binding := Bytes.ofFn fun i => UInt8.ofNat i
    nullifier := Bytes.ofFn fun i => UInt8.ofNat (i + 1) }

/-- The digest of those bytes. -/
def sampleDigest : Bytes32 :=
  toBytes 99670893702482586744054814137214622915889718044971853519251024513209277730743

/-- A seal of the trusted verifier. -/
def sampleSeal : Risc0Seal :=
  ⟨trustedRisc0Selector, ⟨Bytes.fill 64 1, Bytes.fill 128 2, Bytes.fill 64 3⟩⟩

/-- The image of the guest. -/
def sampleImage : Bytes32 := Bytes.fill hashSize 7

/-- A verifier that knows one proof. -/
def sampleStack : VerifierStack :=
  { hashv := fun bytes => if bytes = serializeJournal sampleJournal then sampleDigest else zeroHash
    bindingSpendAddress := fun seed => 10 ^ 12 + fromLeBytes seed.data
    nullifierSpendAddress := fun seed => 10 ^ 12 + fromLeBytes seed.data
    routerAddress := 901
    verifierEntryAddress := 902
    routerAccepts := fun _ ix =>
      decide (ix.data = routerVerifyData sampleSeal sampleImage sampleDigest) }

/-- The payload of that proof. -/
def sampleProof : PrivateCompletionPayload :=
  { sealBytes := sampleSeal.selector.data ++ (sampleSeal.proof.piA.data ++
      (sampleSeal.proof.piB.data ++ sampleSeal.proof.piC.data))
    journal := serializeJournal sampleJournal
    imageId := sampleImage
    bindingSeed := sampleJournal.binding
    nullifierSeed := sampleJournal.nullifier }

theorem sampleStack_sound : RouterSound sampleStack fun s image digest =>
    s = sampleSeal ∧ image = sampleImage ∧ digest = sampleDigest := by
  intro verifierEntry s image digest h
  exact routerVerifyData_inj (of_decide_eq_true h)

/-- A claimed task whose creator had pinned a constraint. -/
def privateStart : PrivateMarket :=
  let world := deployed.after
    [.agent 10 (.registerAgent 100 1 2000000 0),
      .agent 11 (.registerAgent 101 1 1000000 0),
      .create 50 100 false {} (.createTask 10 ⟨1, 1, (1, 0), 1500, 1, 5000, .Exclusive, 0, none⟩
        none none 0),
      .task 50 (.setTaskJobSpec 100 7),
      .work 50 11 (.claimTaskWithJobSpec 101 0)]
  let tasks := world.tasks.entries.map fun entry =>
    (⟨entry.1, { entry.2 with task := { entry.2.task with constraintHash := 9 } }⟩ :
      Sigma fun _ : Pubkey => TaskAccounts)
  { market := { world := { world with tasks := tasks.toAList } }
    zkConfig := some ⟨sampleImage⟩
    verifierEntry := verifierEntryDiscriminator.data ++ trustedRisc0Selector.data ++
      (toBytes trustedRisc0VerifierProgramId).data ++ [0] }

/-- The completion of that task. -/
def sampleCompletion : PrivateInstruction :=
  .completeTaskPrivate 50 11 101 0 sampleProof

theorem PrivateStep.of_toOption {stack : VerifierStack} {m m' : PrivateMarket}
    {i : PrivateInstruction} {payments : Payments}
    (h : (executePrivate stack m i).toOption = some (m', payments)) :
    PrivateStep stack m (i, payments) m' := by
  show executePrivate stack m i = .ok (m', payments)
  cases hexec : executePrivate stack m i with
  | error e =>
    rw [hexec] at h
    cases h
  | ok r =>
    rw [hexec] at h
    rw [Option.some.inj h]

/-- The completion is paid once, for a journal that was proved. -/
theorem private_completion_pays_once_sample :
    ∃ log m, Run (PrivateStep sampleStack) privateStart log m ∧
      log.countP (paysFor sampleProof.journal) = 1 ∧
      ∃ p, CompletionProved sampleStack (fun s image digest =>
        s = sampleSeal ∧ image = sampleImage ∧ digest = sampleDigest) privateStart 50 101
        sampleProof p := by
  have hran : ((executePrivate sampleStack privateStart sampleCompletion).toOption).isSome =
      true := by
    decide +kernel
  obtain ⟨⟨m, payments⟩, hm⟩ := Option.isSome_iff_exists.mp hran
  have hstep : PrivateStep sampleStack privateStart (sampleCompletion, payments) m :=
    PrivateStep.of_toOption hm
  have hrefl : Run (PrivateStep sampleStack) privateStart [] privateStart := .refl
  have hrun := hrefl.snoc hstep
  obtain ⟨hproved, -, honce, -, -, -⟩ := private_completion_pays_once sampleStack_sound hrun
  obtain ⟨p, -, hp⟩ := hproved _ (List.mem_singleton_self _) 50 11 101 0 sampleProof rfl
  refine ⟨_, m, hrun, ?_, p, hp⟩
  have hle := honce sampleProof.journal
  have hpays : paysFor sampleProof.journal ⟨privateStart, (sampleCompletion, payments), m⟩ =
      true := by
    unfold paysFor sampleCompletion
    exact decide_eq_true rfl
  have hpos : 0 < List.countP (paysFor sampleProof.journal)
      [⟨privateStart, (sampleCompletion, payments), m⟩] :=
    List.countP_pos_iff.mpr ⟨_, List.mem_singleton_self _, hpays⟩
  rw [List.nil_append] at hle ⊢
  omega

end AgencCoordination

import AgencCoordination.Effects.Market

/-!
# The exit of an attestor

An attestor that registered itself leaves in two steps: it asks to leave, and after a cooldown its
entry closes and its bond returns. From the request on its attestations open no gate.

* **`RosterMove`** — one step, seen from the roster entry of one attestor.
* **`ExitAsked`** — an entry with an exit time was asked to leave at that time, once.
* **`Retired`** — an attestor that is gone or leaving; its attestations open no strict gate.
* **`attestor_exit`** — both, for every run of the marketplace.
-/

namespace AgencCoordination

open Foundations

/-! ## One step -/

/-- The instruction enrols the attestor. -/
def MarketInstruction.enrols (a : Pubkey) : MarketInstruction → Prop
  | .moderation (.registerAttestor attestor) => attestor = a
  | .moderation (.assignAttestor _ attestor) => attestor = a
  | _ => False

/-- The cooldown of `finalize_attestor_exit` in seconds. -/
def attestorExitCooldown : ℤ := 604800

/-- How the roster entry of `a` looks after an instruction. -/
inductive RosterMove (m : Market) (a : Pubkey) (i : MarketInstruction) :
    Option ModerationAttestor → Prop
  | kept : RosterMove m a i (m.moderation.attestors.lookup a)
  | enrolled {entry : ModerationAttestor} (enrols : i.enrols a)
      (fresh : m.moderation.attestors.lookup a = none) (staying : entry.exitAt = 0) :
      RosterMove m a i (some entry)
  | requested {entry : ModerationAttestor} (asks : i = .moderation (.requestExit a))
      (loaded : m.moderation.attestors.lookup a = some entry) (own : entry.assignedBy = a)
      (staying : entry.exitAt = 0) :
      RosterMove m a i (some { entry with exitAt := m.world.sys.now })
  | finalized {entry : ModerationAttestor} (closes : i = .moderation (.finalizeExit a))
      (loaded : m.moderation.attestors.lookup a = some entry) (own : entry.assignedBy = a)
      (asked : entry.exitAt ≠ 0) (cooled : entry.exitAt + attestorExitCooldown ≤ m.world.sys.now) :
      RosterMove m a i none
  | revoked {entry : ModerationAttestor} {signer : Pubkey} {config : ModerationConfig}
      (revokes : i = .moderation (.revokeAttestor signer a))
      (loaded : m.moderation.attestors.lookup a = some entry)
      (configured : m.moderation.config = some config) (assigner : entry.assignedBy = signer)
      (authority : signer = config.authority) : RosterMove m a i none

theorem RosterMove.of_eq {m : Market} {a : Pubkey} {i : MarketInstruction}
    {after : Option ModerationAttestor} (h : after = m.moderation.attestors.lookup a) :
    RosterMove m a i after := by
  rw [h]
  exact .kept

/-- A moderation instruction, seen from one roster entry. -/
theorem ModerationOp.roster {m : Market} {op : ModerationOp} {moderation : Moderation}
    (h : op.run m = .ok moderation) (a : Pubkey) :
    RosterMove m a (.moderation op) (moderation.attestors.lookup a) := by
  cases op with
  | configure signer moderationAuthority enabled =>
    simp only [ModerationOp.run, configureTaskModeration, bind_eq_ok, Except.ok.injEq] at h
    obtain ⟨_, -, _, -, rfl⟩ := h
    exact .kept
  | heartbeat signer newWindowSecs =>
    simp only [ModerationOp.run, moderationHeartbeat, bind_eq_ok, Except.ok.injEq] at h
    obtain ⟨_, -, _, -, _, -, _, -, rfl⟩ := h
    exact .kept
  | setBlock signer signers contentHash rationaleHash rationaleUri =>
    simp only [ModerationOp.run, setModerationBlock, bind_eq_ok, Except.ok.injEq] at h
    obtain ⟨_, -, _, -, _, -, _, -, rfl⟩ := h
    exact .kept
  | clearBlock signer signers contentHash =>
    simp only [ModerationOp.run, clearModerationBlock, bind_eq_ok, Except.ok.injEq] at h
    obtain ⟨_, -, _, -, rfl⟩ := h
    exact .kept
  | registerAttestor attestor =>
    simp only [ModerationOp.run, registerModerationAttestor, bind_eq_ok, require_eq_ok,
      Except.ok.injEq] at h
    obtain ⟨_, hfresh, _, -, rfl⟩ := h
    rw [Ledger.lookup_insert_eq_ite]
    split_ifs with ha
    · subst ha
      exact .enrolled rfl hfresh rfl
    · exact .kept
  | assignAttestor signer attestor =>
    simp only [ModerationOp.run, assignModerationAttestor, bind_eq_ok, require_eq_ok,
      Except.ok.injEq] at h
    obtain ⟨_, -, _, hfresh, _, -, _, -, rfl⟩ := h
    rw [Ledger.lookup_insert_eq_ite]
    split_ifs with ha
    · subst ha
      exact .enrolled rfl hfresh rfl
    · exact .kept
  | revokeAttestor signer attestor =>
    simp only [ModerationOp.run, revokeModerationAttestor, bind_eq_ok, demand_eq_ok, require_eq_ok,
      Except.ok.injEq] at h
    obtain ⟨config, hconfig, entry, hentry, _, hassigner, _, hauthority, rfl⟩ := h
    by_cases ha : a = attestor
    · subst ha
      rw [AList.lookup_erase]
      exact .revoked rfl hentry hconfig hassigner hauthority
    · exact .of_eq (AList.lookup_erase_ne ha)
  | requestExit attestor =>
    simp only [ModerationOp.run, requestAttestorExit, bind_eq_ok, demand_eq_ok, require_eq_ok,
      Except.ok.injEq] at h
    obtain ⟨entry, hentry, _, hown, _, hstaying, rfl⟩ := h
    rw [Ledger.lookup_insert_eq_ite]
    split_ifs with ha
    · subst ha
      exact .requested rfl hentry hown hstaying
    · exact .kept
  | finalizeExit attestor =>
    simp only [ModerationOp.run, finalizeAttestorExit, bind_eq_ok, demand_eq_ok, require_eq_ok,
      addI64_eq_ok, Except.ok.injEq] at h
    obtain ⟨entry, hentry, _, hown, _, hasked, _, ⟨-, rfl⟩, _, hcooled, rfl⟩ := h
    by_cases ha : a = attestor
    · subst ha
      rw [AList.lookup_erase]
      exact .finalized rfl hentry hown hasked hcooled
    · exact .of_eq (AList.lookup_erase_ne ha)
  | recordTask moderator withAttestor task jobSpecHash attestation =>
    simp only [ModerationOp.run, recordTaskModeration, bind_eq_ok, Except.ok.injEq] at h
    obtain ⟨_, -, _, -, rfl⟩ := h
    exact .kept
  | recordListing moderator withAttestor listing specHash attestation =>
    simp only [ModerationOp.run, recordListingModeration, bind_eq_ok, Except.ok.injEq] at h
    obtain ⟨_, -, _, -, rfl⟩ := h
    exact .kept

/-- Every step, seen from one roster entry. -/
theorem MarketStep.roster {m m' : Market} {label : MarketInstruction × Payments}
    (h : MarketStep m label m') (a : Pubkey) :
    RosterMove m a label.1 (m'.moderation.attestors.lookup a) := by
  obtain ⟨i, p⟩ := label
  cases MarketStep.move h with
  | core gated step entered =>
    refine .of_eq ?_
    show AList.lookup a _ = _
    rw [(enterMarket_frames entered).moderation]
  | moderation ran => exact ModerationOp.roster ran a
  | listing ran => exact .kept
  | goods ran =>
    have hmoved := GoodsOp.move ran
    cases hmoved <;> exact .kept

/-! ## Asking to leave -/

/-- The event asks for the exit of `a`. -/
def asksExit (a : Pubkey) (e : MarketEntry) : Prop := e.label.1 = .moderation (.requestExit a)

/-- An entry of `a` with an exit time asked to leave at that time, and has been the same since. -/
def ExitAsked (a : Pubkey) (log : List MarketEntry) (m : Market) : Prop :=
  ∀ entry, m.moderation.attestors.lookup a = some entry → entry.exitAt ≠ 0 →
    ∃ log₁ e log₂, log = log₁ ++ e :: log₂ ∧ asksExit a e ∧ entry.exitAt = e.before.world.sys.now ∧
      entry.assignedBy = a ∧
      ∀ e' ∈ log₂, e'.before.moderation.attestors.lookup a = some entry

theorem exitAsked_of_run {start m : Market} {log : List MarketEntry} (hstart : start.Genesis)
    (hrun : Run MarketStep start log m) (a : Pubkey) : ExitAsked a log m := by
  induction hrun with
  | refl =>
    intro entry hentry
    rw [hstart.attestors] at hentry
    simp at hentry
  | @snoc log s s' label hr hs ih =>
    intro entry hentry hasked
    have hmove := MarketStep.roster hs a
    rw [hentry] at hmove
    generalize hafter : some entry = after at hmove
    cases hmove with
    | kept =>
      obtain ⟨log₁, e, log₂, rfl, hasks, htime, hown, hsame⟩ := ih entry hafter.symm hasked
      refine ⟨log₁, e, log₂ ++ [⟨s, label, s'⟩], by simp, hasks, htime, hown, ?_⟩
      intro e' he'
      rcases List.mem_append.mp he' with he' | he'
      · exact (hsame e' he').trans hafter
      · rw [List.mem_singleton.mp he']
    | enrolled enrols fresh staying =>
      obtain rfl := Option.some.inj hafter
      exact absurd staying hasked
    | requested asks loaded own staying =>
      obtain rfl := Option.some.inj hafter
      exact ⟨log, ⟨s, label, s'⟩, [], rfl, asks, rfl, own, by simp⟩
    | finalized closes loaded own asked cooled => cases hafter
    | revoked revokes loaded configured assigner authority => cases hafter

/-! ## Gates -/

/-- The attestor has no roster entry, or one that is on its way out. -/
def Retired (a : Pubkey) (m : Moderation) : Prop :=
  ∀ entry, m.attestors.lookup a = some entry → entry.exitAt ≠ 0

theorem Retired.notLoaded {a : Pubkey} {m : Moderation} (h : Retired a m) :
    loadAttestor m a true ≠ .ok () := by
  intro hload
  simp only [loadAttestor, if_true, bind_eq_ok, demand_eq_ok, require_eq_ok] at hload
  obtain ⟨entry, hentry, hstaying⟩ := hload
  exact h entry hentry hstaying

/-- A check of a record by a moderator without a roster entry is of the moderation authority's. -/
theorem validateModeration_authority {config : ModerationConfig} {record : ModerationRecord}
    {a : Pubkey} {now : ℤ} (h : validateModeration config record a now false = .ok ()) :
    a = config.moderationAuthority := by
  simp only [validateModeration, bind_eq_ok, require_eq_ok] at h
  obtain ⟨_, -, _, -, _, hauthority, -⟩ := h
  simpa using hauthority

/-- Nothing a retired attestor attested opens a strict gate, and it attests nothing any more, unless it
is the moderation authority. -/
structure Silenced (a : Pubkey) (m : Moderation) (config : ModerationConfig) : Prop where
  task : ∀ task creator jobSpecHash withAttestor now, moderationGateRelaxed config now = false →
    requireTaskModeration m task creator jobSpecHash a withAttestor now ≠ .ok ()
  listing : ∀ listing specHash withAttestor now, moderationGateRelaxed config now = false →
    requireListingModeration m listing specHash a withAttestor now ≠ .ok ()
  attests : ∀ w withAttestor contentHash attestation bound record,
    recordModeration w m a withAttestor contentHash attestation bound ≠ .ok record

theorem Retired.silenced {a : Pubkey} {m : Moderation} {config : ModerationConfig}
    (h : Retired a m) (hconfig : m.config = some config) (ha : a ≠ config.moderationAuthority) :
    Silenced a m config := by
  constructor
  · intro task creator jobSpecHash withAttestor now hstrict hgate
    cases withAttestor with
    | true =>
      simp only [requireTaskModeration, bind_eq_ok] at hgate
      obtain ⟨_, -, _, -, _, hload, -⟩ := hgate
      exact h.notLoaded hload
    | false =>
      simp only [requireTaskModeration, bind_eq_ok, demand_eq_ok] at hgate
      obtain ⟨config', hconfig', _, -, _, -, hgate⟩ := hgate
      obtain rfl := Option.some.inj (hconfig.symm.trans hconfig')
      rw [if_neg (by rw [hstrict]; simp)] at hgate
      simp only [bind_eq_ok] at hgate
      obtain ⟨_, -, _, -, hvalid⟩ := hgate
      exact ha (validateModeration_authority hvalid)
  · intro listing specHash withAttestor now hstrict hgate
    simp only [requireListingModeration, bind_eq_ok, demand_eq_ok] at hgate
    obtain ⟨config', hconfig', _, -, hgate⟩ := hgate
    obtain rfl := Option.some.inj (hconfig.symm.trans hconfig')
    rw [if_neg (by rw [hstrict]; simp)] at hgate
    simp only [bind_eq_ok] at hgate
    obtain ⟨_, -, _, -, _, hload, hvalid⟩ := hgate
    cases withAttestor with
    | true => exact h.notLoaded hload
    | false => exact ha (validateModeration_authority hvalid)
  · intro w withAttestor contentHash attestation bound record hrecord
    simp only [recordModeration, bind_eq_ok, demand_eq_ok, require_eq_ok] at hrecord
    obtain ⟨config', hconfig', _, hmay, _, hload, -⟩ := hrecord
    obtain rfl := Option.some.inj (hconfig.symm.trans hconfig')
    rcases hmay with hauthority | hpresented
    · exact ha hauthority
    · rw [hpresented] at hload
      exact h.notLoaded hload

/-- A retired attestor stays so until it enrols again. -/
theorem MarketStep.retired {m m' : Market} {label : MarketInstruction × Payments}
    (h : MarketStep m label m') (hclock : m.world.sys.now ≠ 0) {a : Pubkey}
    (hplain : ¬label.1.enrols a) (hretired : Retired a m.moderation) : Retired a m'.moderation := by
  intro entry hentry
  have hmove := MarketStep.roster h a
  rw [hentry] at hmove
  generalize hafter : some entry = after at hmove
  cases hmove with
  | kept => exact hretired entry hafter.symm
  | enrolled enrols fresh staying => exact absurd enrols hplain
  | requested asks loaded own staying =>
    obtain rfl := Option.some.inj hafter
    exact hclock
  | finalized closes loaded own asked cooled => cases hafter
  | revoked revokes loaded configured assigner authority => cases hafter

/-! ## Runs -/

/-- The instruction ends the service of `a`: `a` asks to leave, or its entry is revoked. -/
def MarketInstruction.ends (a : Pubkey) (i : MarketInstruction) : Prop :=
  i = .moderation (.requestExit a) ∨ ∃ signer, i = .moderation (.revokeAttestor signer a)

theorem MarketStep.ends {m m' : Market} {i : MarketInstruction} {p : Payments}
    (h : MarketStep m (i, p) m') (hclock : m.world.sys.now ≠ 0) {a : Pubkey} (hends : i.ends a) :
    Retired a m'.moderation := by
  rcases hends with rfl | ⟨signer, rfl⟩
  · cases MarketStep.move h with
    | moderation ran =>
      simp only [ModerationOp.run, requestAttestorExit, bind_eq_ok, Except.ok.injEq] at ran
      obtain ⟨entry, -, _, -, _, -, rfl⟩ := ran
      intro entry' hentry'
      have hleft : (m.moderation.attestors.insert a
          { entry with exitAt := m.world.sys.now }).lookup a = some entry' := hentry'
      rw [AList.lookup_insert] at hleft
      obtain rfl := Option.some.inj hleft
      exact hclock
  · cases MarketStep.move h with
    | moderation ran =>
      simp only [ModerationOp.run, revokeModerationAttestor, bind_eq_ok, Except.ok.injEq] at ran
      obtain ⟨_, -, _, -, _, -, _, -, rfl⟩ := ran
      intro entry' hentry'
      have hgone : (m.moderation.attestors.erase a).lookup a = some entry' := hentry'
      rw [AList.lookup_erase] at hgone
      cases hgone

theorem clock_of_run {start m : Market} {log : List MarketEntry} (hstart : start.Genesis)
    (hrun : Run MarketStep start log m) : 0 < m.world.sys.now := by
  refine hrun.invariant (I := fun m => 0 < m.world.sys.now) ?_ hstart.world.clock
  intro s label s' hs hpositive
  exact hpositive.trans_le hs.environment.1

/-- An attestor in every run. Its entry leaves the roster only when it is finalized after the cooldown
from its own one request, in which nothing changed about it, or when the authority that assigned it
revokes it; and from the request or the revocation on, until it enrols again, nothing it attested
opens a strict gate and it attests nothing. -/
theorem attestor_exit {start m : Market} {log₁ log₂ : List MarketEntry} {e : MarketEntry}
    (hstart : start.Genesis) (hrun : Run MarketStep start (log₁ ++ e :: log₂) m) (a : Pubkey) :
    (∀ entry, e.before.moderation.attestors.lookup a = some entry →
      e.after.moderation.attestors.lookup a = none →
      (∃ log₃ asked log₄, log₁ = log₃ ++ asked :: log₄ ∧ asksExit a asked ∧ entry.assignedBy = a ∧
        asked.before.world.sys.now + attestorExitCooldown ≤ e.before.world.sys.now ∧
        ∀ e' ∈ log₄, e'.before.moderation.attestors.lookup a = some entry) ∨
      ∃ config, e.before.moderation.config = some config ∧ entry.assignedBy = config.authority ∧
        e.label.1 = .moderation (.revokeAttestor config.authority a)) ∧
    (e.label.1.ends a → (∀ e' ∈ log₂, ¬e'.label.1.enrols a) →
      Retired a m.moderation ∧ ∀ config, m.moderation.config = some config →
        a ≠ config.moderationAuthority → Silenced a m.moderation config) := by
  obtain ⟨hbefore, hs, hrest⟩ := hrun.split_at
  have hclock := clock_of_run hstart hbefore
  constructor
  · intro entry hentry hgone
    have hmove := MarketStep.roster hs a
    rw [hgone] at hmove
    generalize hafter : (none : Option ModerationAttestor) = after at hmove
    cases hmove with
    | kept =>
      rw [hentry] at hafter
      cases hafter
    | enrolled enrols fresh staying => cases hafter
    | requested asks loaded own staying => cases hafter
    | finalized closes loaded own asked cooled =>
      obtain rfl := Option.some.inj (hentry.symm.trans loaded)
      obtain ⟨log₃, asked', log₄, hlog, hasks, htime, -, hsame⟩ :=
        exitAsked_of_run hstart hbefore a entry hentry asked
      rw [htime] at cooled
      exact .inl ⟨log₃, asked', log₄, hlog, hasks, own, cooled, hsame⟩
    | revoked revokes loaded configured assigner authority =>
      obtain rfl := Option.some.inj (hentry.symm.trans loaded)
      subst authority
      exact .inr ⟨_, configured, assigner, revokes⟩
  · intro hends hquiet
    have hafter : Retired a e.after.moderation ∧ 0 < e.after.world.sys.now :=
      ⟨hs.ends hclock.ne' hends, hclock.trans_le hs.environment.1⟩
    have hlast : Retired a m.moderation ∧ 0 < m.world.sys.now := by
      refine hrest.invariant_of (I := fun m => Retired a m.moderation ∧ 0 < m.world.sys.now)
        (C := fun e => ¬e.label.1.enrols a) ?_ hquiet hafter
      intro e' hs' hplain hbefore'
      exact ⟨hs'.retired hbefore'.2.ne' hplain hbefore'.1, hbefore'.2.trans_le hs'.environment.1⟩
    exact ⟨hlast.1, fun config hconfig ha => hlast.1.silenced hconfig ha⟩

/-- An attestor registers itself, asks to leave, and waits. -/
def leavingScript : List MarketInstruction :=
  [.moderation (.registerAttestor 33),
    .moderation (.requestExit 33),
    .core {} (.tick 700000)]

/-- The entry closes, and it had asked to leave a cooldown before. -/
theorem attestor_exit_cooled :
    ∃ log p m asked, Run MarketStep deployedMarket log (deployedMarket.after leavingScript) ∧
      MarketStep (deployedMarket.after leavingScript) (.moderation (.finalizeExit 33), p) m ∧
      m.moderation.attestors.lookup 33 = none ∧ asked ∈ log ∧ asksExit 33 asked ∧
      asked.before.world.sys.now + attestorExitCooldown ≤
        (deployedMarket.after leavingScript).world.sys.now := by
  obtain ⟨log, hrun⟩ := deployedMarket.run_after leavingScript
  have hentry : ((deployedMarket.after leavingScript).moderation.attestors.lookup 33).isSome =
      true := by
    decide +kernel
  obtain ⟨entry, hentry⟩ := Option.isSome_iff_exists.mp hentry
  have hexec : (executeMarket (deployedMarket.after leavingScript)
      (.moderation (.finalizeExit 33))).toOption.map
        (fun r => (r.1.moderation.attestors.lookup 33).isNone) = some true := by
    decide +kernel
  obtain ⟨⟨m, p⟩, hexec, hgone⟩ := Option.map_eq_some_iff.mp hexec
  have hstep : MarketStep (deployedMarket.after leavingScript)
      (.moderation (.finalizeExit 33), p) m := MarketStep.of_toOption hexec
  have hnone : m.moderation.attestors.lookup 33 = none := Option.isNone_iff_eq_none.mp hgone
  obtain ⟨hleaves, -⟩ := attestor_exit deployedMarket_genesis (hrun.snoc hstep) 33
  rcases hleaves entry hentry hnone with
    ⟨log₃, asked, log₄, rfl, hasks, -, htime, -⟩ | ⟨_, -, -, hi⟩
  · exact ⟨_, p, m, asked, hrun, hstep, hnone, by simp, hasks, htime⟩
  · cases hi

end AgencCoordination

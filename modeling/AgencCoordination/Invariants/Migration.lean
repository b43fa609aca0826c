import AgencCoordination.Program.Migration

/-!
# Migration preserves meaning

Layouts only ever append fields, and an account of an old layout ends in zeros. But an absent
optional field takes one byte instead of thirty-three, so the appended fields are not read at the
old length of the account: they are read wherever the old fields end, partly out of bytes the
account had before it grew.

* **`LegacyTask.read_grown`, `Batch2Task.read_grown`** — whatever options are set, the grown
  account reads as the old fields with default values of the appended ones.
* **`migrateTask_eq_ok`** — when the task sweep succeeds, and with what.
* **`migrateProtocol_eq_ok`** — the same for the configuration; its bytes are those of the grown
  account, since what is written back is what was read.
* **`migration_preserves_meaning`** — the two sweeps keep what the accounts say, repeat without
  effect, reject what they do not recognize, and commute.
-/

namespace AgencCoordination.Layout

open Foundations
open Foundations.Codec

/-! ## What the appended fields default to -/

def OperatorLeg.absent : OperatorLeg := ⟨Pubkey.default, 0, .fill 16 0⟩

def ReferralLeg.absent : ReferralLeg := ⟨Pubkey.default, 0⟩

/-- A Batch-2 task in the present layout. -/
def Batch2Task.migrated (t : Batch2Task) : Task :=
  { toBatch2Task := t, toReferralLeg := .absent }

/-- A task from before Batch 2 in the present layout. -/
def LegacyTask.migrated (t : LegacyTask) : Task :=
  Batch2Task.migrated { toLegacyTask := t, toOperatorLeg := .absent }

/-- A configuration from before the surface revision in the present layout. -/
def LegacyConfig.migrated (c : LegacyConfig) : ProtocolConfig :=
  { toLegacyConfig := c, surfaceRevision := 0 }

def LegacyTask.account : Codec LegacyTask := accountOf taskDiscriminator LegacyTask.codec

def Batch2Task.account : Codec Batch2Task := accountOf taskDiscriminator Batch2Task.codec

def LegacyConfig.account : Codec LegacyConfig := accountOf configDiscriminator LegacyConfig.codec

/-! ## Lengths -/

theorem LegacyTask.codec_atMost : LegacyTask.codec.AtMost 374 :=
  ((bytes_width 32).atMost.seq <| (bytes_width 32).atMost.seq <| u64_width.atMost.seq <|
    (bytes_width 64).atMost.seq <| (bytes_width 32).atMost.seq <| u64_width.atMost.seq <|
    u8_width.atMost.seq <| u8_width.atMost.seq <| enum_width.atMost.seq <|
    enum_width.atMost.seq <| i64_width.atMost.seq <| i64_width.atMost.seq <|
    i64_width.atMost.seq <| (bytes_width 32).atMost.seq <| (bytes_width 64).atMost.seq <|
    u8_width.atMost.seq <| u8_width.atMost.seq <| u8_width.atMost.seq <| u16_width.atMost.seq <|
    (bytes_width 32).atMost.option.seq <| enum_width.atMost.seq <| u16_width.atMost.seq
    (bytes_width 32).atMost.option).imap

theorem OperatorLeg.codec_width : OperatorLeg.codec.Width 50 :=
  ((bytes_width 32).seq <| u16_width.seq (bytes_width 16)).imap

theorem LegacyConfig.codec_width : LegacyConfig.codec.Width 341 :=
  ((bytes_width 32).seq <| (bytes_width 32).seq <| u8_width.seq <| u16_width.seq <|
    u64_width.seq <| u64_width.seq <| i64_width.seq <| i64_width.seq <| u64_width.seq <|
    u64_width.seq <| u64_width.seq <| u64_width.seq <| u8_width.seq <| u8_width.seq <|
    u8_width.seq <| i64_width.seq <| u8_width.seq <| i64_width.seq <| u8_width.seq <|
    u64_width.seq <| u8_width.seq <| i64_width.seq <| i64_width.seq <| u8_width.seq <|
    u8_width.seq <| enum_width.seq <| u8_width.seq ((bytes_width 32).listOf 5)).imap

theorem Batch2Task.codec_atMost : Batch2Task.codec.AtMost 424 :=
  (LegacyTask.codec_atMost.seq OperatorLeg.codec_width.atMost).imap

section accounts

variable {α : Type} {discriminator : List UInt8} {c : Codec α} {n : ℕ}

theorem accountOf_atMost (h : c.AtMost n) :
    (accountOf discriminator c).AtMost (discriminator.length + n) :=
  ((magic_width discriminator).atMost.seq h).imap

theorem accountOf_width (h : c.Width n) :
    (accountOf discriminator c).Width (discriminator.length + n) :=
  ((magic_width discriminator).seq h).imap

/-- An account that is read starts with its discriminator. -/
theorem take_of_tryDeserialize {data : List UInt8} {a : α}
    (h : tryDeserialize (accountOf discriminator c) data = some a) :
    data.take discriminator.length = discriminator := by
  obtain ⟨⟨a', rest⟩, hread, -⟩ := Option.map_eq_some_iff.mp h
  rw [← (accountOf discriminator c).encode_decode _ _ _ hread]
  show ((discriminator ++ c.encode a') ++ rest).take discriminator.length = discriminator
  rw [List.append_assoc, List.take_left]

/-- What was read is written back unchanged. -/
theorem trySerialize_of_read {data more : List UInt8} {a : α}
    (h : tryDeserialize c data = some a) : trySerialize c a (data ++ more) = data ++ more := by
  obtain ⟨⟨a', rest⟩, hread, rfl⟩ := Option.map_eq_some_iff.mp h
  rw [← c.encode_decode _ _ _ hread, List.append_assoc]
  show c.encode a' ++ (c.encode a' ++ (rest ++ more)).drop (c.encode a').length = _
  rw [List.drop_left]

/-- A read does not depend on what follows. -/
theorem tryDeserialize_append {data : List UInt8} {a : α} (h : tryDeserialize c data = some a)
    (more : List UInt8) : tryDeserialize c (data ++ more) = some a := by
  obtain ⟨⟨a', rest⟩, hread, rfl⟩ := Option.map_eq_some_iff.mp h
  rw [tryDeserialize, c.decode_append hread more]
  rfl

/-- A value with trailing zeros is read from the padded bytes before them. -/
theorem tryDeserialize_padTo {size k : ℕ} {short : List UInt8} {a : α}
    (hshort : c.encode a = short ++ List.replicate k 0) (hlen : short.length + k ≤ size) :
    tryDeserialize c (padTo size short) = some a := by
  rw [tryDeserialize, c.decode_padTo hshort hlen]
  rfl

end accounts

/-! ## Reading a grown account -/

theorem OperatorLeg.encode_absent :
    OperatorLeg.codec.encode .absent = List.replicate 50 0 := by
  decide

theorem ReferralLeg.encode_absent :
    ReferralLeg.codec.encode .absent = List.replicate 34 0 := by
  decide

/-- The old fields of a Batch-2 task, then zeros. -/
theorem Batch2Task.encode_migrated (t : Batch2Task) :
    Task.account.encode t.migrated = Batch2Task.account.encode t ++ List.replicate 34 0 := by
  show taskDiscriminator ++ (Batch2Task.codec.encode t ++ ReferralLeg.codec.encode .absent) = _
  rw [ReferralLeg.encode_absent, ← List.append_assoc]
  rfl

/-- The old fields of a task from before Batch 2, then zeros. -/
theorem LegacyTask.encode_migrated (t : LegacyTask) :
    Task.account.encode t.migrated = LegacyTask.account.encode t ++ List.replicate 84 0 := by
  rw [LegacyTask.migrated, Batch2Task.encode_migrated]
  show (taskDiscriminator ++ (LegacyTask.codec.encode t ++ OperatorLeg.codec.encode .absent)) ++
    List.replicate 34 0 = _
  rw [OperatorLeg.encode_absent, ← List.append_assoc, List.append_assoc,
    List.replicate_append_replicate]
  rfl

theorem LegacyTask.account_atMost (t : LegacyTask) :
    (LegacyTask.account.encode t).length ≤ oldTaskSize :=
  accountOf_atMost LegacyTask.codec_atMost t

theorem Batch2Task.account_atMost (t : Batch2Task) :
    (Batch2Task.account.encode t).length ≤ batch2TaskSize :=
  accountOf_atMost Batch2Task.codec_atMost t

theorem LegacyConfig.account_width (c : LegacyConfig) :
    (LegacyConfig.account.encode c).length = oldConfigSize :=
  accountOf_width LegacyConfig.codec_width c

/-- A legacy task account, grown, reads as its task with default values appended. -/
theorem LegacyTask.read_grown (t : LegacyTask) :
    tryDeserialize Task.account
      (padTo taskSize (padTo oldTaskSize (LegacyTask.account.encode t))) = some t.migrated := by
  have hlen := t.account_atMost
  rw [padTo_padTo hlen (by decide)]
  exact tryDeserialize_padTo t.encode_migrated (Nat.add_le_add_right hlen 84)

/-- A Batch-2 task account, grown, reads as its task with default values appended. -/
theorem Batch2Task.read_grown (t : Batch2Task) :
    tryDeserialize Task.account
      (padTo taskSize (padTo batch2TaskSize (Batch2Task.account.encode t))) =
        some t.migrated := by
  have hlen := t.account_atMost
  rw [padTo_padTo hlen (by decide)]
  exact tryDeserialize_padTo t.encode_migrated (Nat.add_le_add_right hlen 34)

/-- A legacy configuration, grown, reads as itself with no surface revision. -/
theorem LegacyConfig.read_grown (c : LegacyConfig) :
    tryDeserialize ProtocolConfig.account (padTo configSize (LegacyConfig.account.encode c)) =
      some c.migrated := by
  have hencode : ProtocolConfig.account.encode c.migrated =
      LegacyConfig.account.encode c ++ List.replicate 2 0 := by
    show configDiscriminator ++ (LegacyConfig.codec.encode c ++ u16.encode 0) = _
    rw [← List.append_assoc]
    rfl
  exact tryDeserialize_padTo hencode (by rw [c.account_width]; decide)

/-! ## Growing -/

/-- The payer has the rent an account of `size` still lacks. -/
def CanFund (rt : Runtime) (size : ℕ) (account payer : AccountInfo) : Prop :=
  rt.minimumBalance size - account.lamports ≤ payer.lamports

/-- The account of `size` that `growAccount` leaves. -/
def grown (rt : Runtime) (size : ℕ) (account : AccountInfo) : AccountInfo :=
  { account with
    data := padTo size account.data
    lamports := max account.lamports (rt.minimumBalance size) }

/-- The payer that `growAccount` leaves. -/
def topUp (rt : Runtime) (size : ℕ) (account payer : AccountInfo) : AccountInfo :=
  { payer with lamports := payer.lamports - (rt.minimumBalance size - account.lamports) }

theorem growAccount_eq_ok {rt : Runtime} {size : ℕ} {account payer : AccountInfo}
    {after : AccountInfo × AccountInfo} :
    growAccount rt size account payer = .ok after ↔
      CanFund rt size account payer ∧
        after = (grown rt size account, topUp rt size account payer) := by
  unfold growAccount CanFund grown topUp
  by_cases hlt : account.lamports < rt.minimumBalance size
  · have hmax : max account.lamports (rt.minimumBalance size) =
        account.lamports + (rt.minimumBalance size - account.lamports) := by omega
    simp only [if_pos hlt, bind_eq_ok, checkedSub_eq_ok, Except.ok.injEq, hmax]
    constructor
    · rintro ⟨_, ⟨-, rfl⟩, _, ⟨hfund, rfl⟩, rfl⟩
      exact ⟨hfund, rfl⟩
    · rintro ⟨hfund, rfl⟩
      exact ⟨_, ⟨hlt.le, rfl⟩, _, ⟨hfund, rfl⟩, rfl⟩
  · have hmax : max account.lamports (rt.minimumBalance size) = account.lamports := by omega
    have hzero : rt.minimumBalance size - account.lamports = 0 := by omega
    simp only [if_neg hlt, Except.ok.injEq, hmax, hzero, Nat.sub_zero, Nat.zero_le, true_and]
    exact eq_comm

/-! ## `migrate_task` -/

/-- The multisig of the configuration approved. -/
def MigrateTask.Approved (rt : Runtime) (accounts : MigrateTask) : Prop :=
  ∃ config, loadConfig rt accounts.protocolConfig = .ok config ∧
    accounts.authority.isSigner = true ∧
    requireMultisigThreshold rt config (uniqueAccountInfos accounts.remaining) = .ok ()

/-- The account is owned by the program and, in the present layout, reads as a task whose address
it has. -/
def CanonicalTask (rt : Runtime) (info : AccountInfo) (task : Task) : Prop :=
  info.owner = rt.programId ∧
    tryDeserialize Task.account
      (if taskSize ≤ info.data.length then info.data else padTo taskSize info.data) = some task ∧
    info.key = (canonicalTaskAddress rt task).1

/-- A length that is migrated to the present layout. -/
def OldTaskLength (len : ℕ) : Prop := len = oldTaskSize ∨ len = batch2TaskSize

theorem OldTaskLength.lt {len : ℕ} (h : OldTaskLength len) : len < taskSize := by
  rcases h with rfl | rfl
  · decide
  · decide

theorem classifyTaskMigration_eq_ok {len : ℕ} {action : MigrationAction} :
    classifyTaskMigration len = .ok action ↔
      taskSize ≤ len ∧ action = .AlreadyMigrated ∨ OldTaskLength len ∧ action = .Realloc := by
  unfold classifyTaskMigration
  by_cases hsize : taskSize ≤ len
  · have hold : ¬OldTaskLength len := fun h => absurd h.lt (Nat.not_lt.mpr hsize)
    rw [if_pos hsize, Except.ok.injEq]
    simp only [hsize, hold, true_and, false_and, or_false]
    exact eq_comm
  · by_cases hold : OldTaskLength len
    · have hif : len = oldTaskSize ∨ len = batch2TaskSize := hold
      rw [if_neg hsize, if_pos hif, Except.ok.injEq]
      simp only [hsize, hold, true_and, false_and, false_or]
      exact eq_comm
    · have hif : ¬(len = oldTaskSize ∨ len = batch2TaskSize) := hold
      rw [if_neg hsize, if_neg hif]
      simp only [hsize, hold, false_and, or_false, reduceCtorEq]

/-- **The task sweep.** It succeeds on the approved canonical tasks of a known length; an account of
the present length stays as it is, and so does every account of a dry run. -/
theorem migrateTask_eq_ok {rt : Runtime} {accounts after : MigrateTask} {dryRun : Bool} :
    migrateTask rt accounts dryRun = .ok after ↔
      accounts.Approved rt ∧ (∃ task, CanonicalTask rt accounts.task task) ∧
        (taskSize ≤ accounts.task.data.length ∧ after = accounts ∨
          OldTaskLength accounts.task.data.length ∧
            (dryRun = true ∧ after = accounts ∨
              dryRun = false ∧ CanFund rt taskSize accounts.task accounts.payer ∧
                after = { accounts with
                  task := grown rt taskSize accounts.task
                  payer := topUp rt taskSize accounts.task accounts.payer })) := by
  unfold migrateTask
  simp only [bind_eq_ok, require_eq_ok, classifyTaskMigration_eq_ok]
  constructor
  · rintro ⟨config, hconfig, _, hsigner, _, hmultisig, _, howner, action, haction, h⟩
    refine ⟨⟨config, hconfig, hsigner, hmultisig⟩, ?_⟩
    rcases haction with ⟨hsize, rfl⟩ | ⟨hold, rfl⟩
    · simp only [bind_eq_ok, demand_eq_ok, requireCanonicalTaskAddress, require_eq_ok,
        Except.ok.injEq] at h
      obtain ⟨task, hread, _, hkey, rfl⟩ := h
      refine ⟨⟨task, howner, ?_, hkey⟩, .inl ⟨hsize, rfl⟩⟩
      rw [if_pos hsize, hread]
    · simp only [bind_eq_ok, demand_eq_ok, requireCanonicalTaskAddress, require_eq_ok] at h
      obtain ⟨task, hread, _, hkey, h⟩ := h
      refine ⟨⟨task, howner, ?_, hkey⟩, .inr ⟨hold, ?_⟩⟩
      · rw [if_neg (Nat.not_le.mpr hold.lt), hread]
      · cases dryRun with
        | true => exact .inl ⟨rfl, (Except.ok.inj h).symm⟩
        | false =>
          simp only [Bool.false_eq_true, if_false, bind_eq_ok, growAccount_eq_ok, Prod.exists,
            Prod.mk.injEq, Except.ok.injEq] at h
          obtain ⟨_, _, ⟨hfund, rfl, rfl⟩, rfl⟩ := h
          exact .inr ⟨rfl, hfund, rfl⟩
  · rintro ⟨⟨config, hconfig, hsigner, hmultisig⟩, ⟨task, howner, hread, hkey⟩, h⟩
    refine ⟨config, hconfig, (), hsigner, (), hmultisig, (), howner, ?_⟩
    rcases h with ⟨hsize, rfl⟩ | ⟨hold, h⟩
    · rw [if_pos hsize] at hread
      refine ⟨.AlreadyMigrated, .inl ⟨hsize, rfl⟩, ?_⟩
      simp only [bind_eq_ok, demand_eq_ok, requireCanonicalTaskAddress, require_eq_ok]
      exact ⟨task, hread, (), hkey, trivial⟩
    · rw [if_neg (Nat.not_le.mpr hold.lt)] at hread
      refine ⟨.Realloc, .inr ⟨hold, rfl⟩, ?_⟩
      simp only [bind_eq_ok, demand_eq_ok, requireCanonicalTaskAddress, require_eq_ok]
      refine ⟨task, hread, (), hkey, ?_⟩
      rcases h with ⟨rfl, rfl⟩ | ⟨rfl, hfund, rfl⟩
      · rfl
      · simp only [Bool.false_eq_true, if_false, bind_eq_ok, growAccount_eq_ok, Prod.exists,
          Prod.mk.injEq, Except.ok.injEq]
        exact ⟨_, _, ⟨hfund, rfl, rfl⟩, rfl⟩

/-- A canonical task stays the same task when it grows. -/
theorem CanonicalTask.grown {rt : Runtime} {info : AccountInfo} {task : Task}
    (h : CanonicalTask rt info task) (hold : OldTaskLength info.data.length) :
    CanonicalTask rt (grown rt taskSize info) task := by
  obtain ⟨howner, hread, hkey⟩ := h
  refine ⟨howner, ?_, hkey⟩
  rw [if_neg (Nat.not_le.mpr hold.lt)] at hread
  show tryDeserialize Task.account
    (if taskSize ≤ (padTo taskSize info.data).length then _ else _) = some task
  rw [if_pos (length_padTo _ _).ge]
  exact hread

/-- A successful run leaves a canonical task of the present length. -/
theorem migrateTask_canonical {rt : Runtime} {accounts after : MigrateTask}
    (h : migrateTask rt accounts false = .ok after) :
    taskSize ≤ after.task.data.length ∧ ∃ task, CanonicalTask rt after.task task := by
  obtain ⟨-, ⟨task, htask⟩, ⟨hsize, rfl⟩ | ⟨hold, ⟨hdry, -⟩ | ⟨-, -, rfl⟩⟩⟩ := migrateTask_eq_ok.mp h
  · exact ⟨hsize, task, htask⟩
  · cases hdry
  · exact ⟨(length_padTo _ _).ge, task, htask.grown hold⟩

/-! ## `migrate_protocol` -/

/-- The multisig of the configuration, read in the present layout, approved, and the configuration
is not corrupt. -/
def ConfigApproved (rt : Runtime) (accounts : MigrateProtocol) (config : ProtocolConfig) : Prop :=
  accounts.authority.isSigner = true ∧
    requireMultisigThreshold rt config (uniqueAccountInfos accounts.remaining) = .ok () ∧
    config.validatePaddingFields = true

/-- The account is the program's configuration and reads, in the present layout, as `config`. -/
def CanonicalConfig (rt : Runtime) (info : AccountInfo) (config : ProtocolConfig) : Prop :=
  info.owner = rt.programId ∧ info.key = (rt.findProgramAddress [seed "protocol"]).1 ∧
    tryDeserialize ProtocolConfig.account (padTo configSize info.data) = some config

theorem classifyConfigMigration_eq_ok {len : ℕ} {action : MigrationAction} :
    classifyConfigMigration len = .ok action ↔
      configSize ≤ len ∧ action = .AlreadyMigrated ∨ len = oldConfigSize ∧ action = .Realloc := by
  unfold classifyConfigMigration
  by_cases hsize : configSize ≤ len
  · have hold : len ≠ oldConfigSize := by
      rintro rfl
      exact absurd hsize (by decide)
    rw [if_pos hsize, Except.ok.injEq]
    simp only [hsize, hold, true_and, false_and, or_false]
    exact eq_comm
  · by_cases hold : len = oldConfigSize
    · rw [if_neg hsize, if_pos hold, Except.ok.injEq]
      rw [hold] at hsize ⊢
      simp only [hsize, true_and, false_and, false_or]
      exact eq_comm
    · rw [if_neg hsize, if_neg hold]
      simp only [hsize, hold, false_and, or_false, reduceCtorEq]

/-- There is one version so far, so the version leg succeeds on it alone and changes nothing. -/
theorem advanceVersion_eq_ok {config config' : ProtocolConfig} {target : UInt8} :
    advanceVersion config target = .ok config' ↔
      config.protocolVersion = 1 ∧ target = 1 ∧ config' = config := by
  unfold advanceVersion
  simp only [require_bind_eq_ok]
  constructor
  · rintro ⟨hle, hcurrent, hmin, h⟩
    have hversion : config.protocolVersion = 1 :=
      UInt8.le_antisymm (UInt8.le_trans hle hcurrent) hmin
    have htarget : target = 1 := UInt8.le_antisymm hcurrent (UInt8.le_trans hmin hle)
    rw [if_neg (by rw [hversion, htarget]; decide)] at h
    exact ⟨hversion, htarget, (Except.ok.inj h).symm⟩
  · rintro ⟨hversion, rfl, rfl⟩
    rw [hversion]
    exact ⟨by decide, by decide, by decide, if_neg (by decide)⟩

/-- What the configuration account is after the migration. -/
def migratedConfig (rt : Runtime) (info : AccountInfo) : AccountInfo :=
  if info.data.length = oldConfigSize then grown rt configSize info else info

/-- What the payer is after the migration of the configuration. -/
def configPayer (rt : Runtime) (info payer : AccountInfo) : AccountInfo :=
  if info.data.length = oldConfigSize then topUp rt configSize info payer else payer

/-- The configuration that was read is written back unchanged. -/
theorem trySerialize_config {data : List UInt8} {config : ProtocolConfig}
    (h : tryDeserialize ProtocolConfig.account (padTo configSize data) = some config)
    (hsize : configSize ≤ data.length) :
    trySerialize ProtocolConfig.account config data = data := by
  have hdata : data = padTo configSize data ++ data.drop configSize := by
    have hnone : configSize - data.length = 0 := by omega
    rw [padTo, hnone, List.replicate_zero, List.append_nil, List.take_append_drop]
  rw [hdata]
  exact trySerialize_of_read h

/-- So it is in the account the size leg leaves. -/
theorem trySerialize_migrated {rt : Runtime} {info : AccountInfo} {config : ProtocolConfig}
    (h : tryDeserialize ProtocolConfig.account (padTo configSize info.data) = some config)
    (hlen : configSize ≤ info.data.length ∨ info.data.length = oldConfigSize) :
    { migratedConfig rt info with
      data := trySerialize ProtocolConfig.account config (migratedConfig rt info).data } =
        migratedConfig rt info := by
  have hwritten : trySerialize ProtocolConfig.account config (migratedConfig rt info).data =
      (migratedConfig rt info).data := by
    rw [migratedConfig]
    split_ifs with hold
    · have hpadded := padTo_self (padTo configSize info.data)
      rw [length_padTo] at hpadded
      refine trySerialize_config ?_ (length_padTo _ _).ge
      show tryDeserialize _ (padTo configSize (padTo configSize info.data)) = _
      rw [hpadded, h]
    · exact trySerialize_config h (hlen.resolve_right hold)
  rw [hwritten]

/-- The size leg, over the lengths it is reached with. -/
theorem growConfig_eq_ok {rt : Runtime} {info payer : AccountInfo} {action : MigrationAction}
    {after : AccountInfo × AccountInfo}
    (h : classifyConfigMigration info.data.length = .ok action) :
    growConfig rt action info payer = .ok after ↔
      (configSize ≤ info.data.length ∨
        info.data.length = oldConfigSize ∧ CanFund rt configSize info payer) ∧
        after = (migratedConfig rt info, configPayer rt info payer) := by
  have hboth : ¬configSize ≤ oldConfigSize := by decide
  rw [migratedConfig, configPayer]
  rcases classifyConfigMigration_eq_ok.mp h with ⟨hsize, rfl⟩ | ⟨hold, rfl⟩
  · have hne : info.data.length ≠ oldConfigSize := by
      intro heq
      rw [heq] at hsize
      exact hboth hsize
    rw [growConfig, if_neg hne, if_neg hne, Except.ok.injEq]
    simp only [hsize, true_or, true_and]
    exact eq_comm
  · rw [growConfig, growAccount_eq_ok, if_pos hold, if_pos hold]
    simp only [hold, hboth, false_or, true_and]

/-- **The configuration sweep.** It succeeds on the approved canonical configuration of a known
length and version, and leaves the grown account. -/
theorem migrateProtocol_eq_ok {rt : Runtime} {accounts after : MigrateProtocol} {target : UInt8} :
    migrateProtocol rt accounts target = .ok after ↔
      (∃ config, CanonicalConfig rt accounts.protocolConfig config ∧
        ConfigApproved rt accounts config ∧ config.protocolVersion = 1) ∧ target = 1 ∧
        (configSize ≤ accounts.protocolConfig.data.length ∨
          accounts.protocolConfig.data.length = oldConfigSize ∧
            CanFund rt configSize accounts.protocolConfig accounts.payer) ∧
        after = { accounts with
          protocolConfig := migratedConfig rt accounts.protocolConfig
          payer := configPayer rt accounts.protocolConfig accounts.payer } := by
  unfold migrateProtocol
  simp only [bind_eq_ok, require_eq_ok, demand_eq_ok, advanceVersion_eq_ok, Except.ok.injEq]
  constructor
  · rintro ⟨_, howner, _, hkey, action, haction, config, hread, _, hsigner, _, hmultisig, _,
      hpadding, resized, hgrow, _, ⟨hversion, rfl, rfl⟩, rfl⟩
    obtain ⟨hlen, rfl⟩ := (growConfig_eq_ok haction).mp hgrow
    refine ⟨⟨_, ⟨howner, hkey, hread⟩, ⟨hsigner, hmultisig, hpadding⟩, hversion⟩, rfl, hlen, ?_⟩
    rw [trySerialize_migrated hread (hlen.imp_right And.left)]
  · rintro ⟨⟨config, ⟨howner, hkey, hread⟩, ⟨hsigner, hmultisig, hpadding⟩, hversion⟩, rfl, hlen,
      rfl⟩
    obtain ⟨action, haction⟩ : ∃ action,
        classifyConfigMigration accounts.protocolConfig.data.length = .ok action := by
      rcases hlen with hsize | ⟨hold, -⟩
      · exact ⟨_, classifyConfigMigration_eq_ok.mpr (.inl ⟨hsize, rfl⟩)⟩
      · exact ⟨_, classifyConfigMigration_eq_ok.mpr (.inr ⟨hold, rfl⟩)⟩
    refine ⟨(), howner, (), hkey, action, haction, config, hread, (), hsigner, (), hmultisig, (),
      hpadding, _, (growConfig_eq_ok haction).mpr ⟨hlen, rfl⟩, config, ⟨hversion, rfl, rfl⟩, ?_⟩
    rw [trySerialize_migrated hread (hlen.imp_right And.left)]

theorem CanonicalConfig.migrated {rt : Runtime} {info : AccountInfo} {config : ProtocolConfig}
    (h : CanonicalConfig rt info config) :
    CanonicalConfig rt (migratedConfig rt info) config := by
  obtain ⟨howner, hkey, hread⟩ := h
  rw [migratedConfig]
  split_ifs with hold
  · have hpadded := padTo_self (padTo configSize info.data)
    rw [length_padTo] at hpadded
    refine ⟨howner, hkey, ?_⟩
    show tryDeserialize _ (padTo configSize (padTo configSize info.data)) = _
    rw [hpadded, hread]
  · exact ⟨howner, hkey, hread⟩

theorem configSize_le_migrated {rt : Runtime} {info : AccountInfo}
    (hlen : configSize ≤ info.data.length ∨ info.data.length = oldConfigSize) :
    configSize ≤ (migratedConfig rt info).data.length := by
  rw [migratedConfig]
  split_ifs with hold
  · exact (length_padTo _ _).ge
  · exact hlen.resolve_right hold

/-- An account of the present layout stays as it is. -/
theorem migratedConfig_of_le {rt : Runtime} {info : AccountInfo}
    (h : configSize ≤ info.data.length) : migratedConfig rt info = info := by
  rw [migratedConfig, if_neg]
  intro heq
  rw [heq] at h
  exact absurd h (by decide)

theorem configPayer_of_le {rt : Runtime} {info payer : AccountInfo}
    (h : configSize ≤ info.data.length) : configPayer rt info payer = payer := by
  rw [configPayer, if_neg]
  intro heq
  rw [heq] at h
  exact absurd h (by decide)

/-- What is read of a configuration that is long enough. -/
theorem loadConfig_of_le {rt : Runtime} {info : AccountInfo}
    (h : oldConfigSize ≤ info.data.length) :
    loadConfig rt info = (do
      require (info.owner = rt.programId) .InvalidAccountOwner
      require (info.key = (rt.findProgramAddress [seed "protocol"]).1) .InvalidPda
      demand (tryDeserialize ProtocolConfig.account
        (if info.data.length < configSize then padTo configSize info.data else info.data))
        .CorruptedData) := by
  have hrequire : require (oldConfigSize ≤ info.data.length)
      CoordinationError.ConfigNotMigratable = .ok () := if_pos h
  rw [loadConfig, hrequire]
  rfl

/-- `migrate_task` reads the configuration alike before and after it grew. -/
theorem loadConfig_migrated {rt : Runtime} {info : AccountInfo} :
    loadConfig rt (migratedConfig rt info) = loadConfig rt info := by
  rw [migratedConfig]
  split_ifs with hold
  · have hsize : (grown rt configSize info).data.length = configSize := length_padTo _ _
    have hlong : oldConfigSize ≤ (grown rt configSize info).data.length := by
      rw [hsize]
      decide
    have hshort : info.data.length < configSize := by
      rw [hold]
      decide
    rw [loadConfig_of_le hlong, loadConfig_of_le hold.ge, if_neg hsize.ge.not_gt, if_pos hshort]
    rfl
  · rfl

/-! ## What the sweeps keep -/

/-- What the two sweeps owe to the accounts they grow. -/
structure MigrationSound (rt : Runtime) : Prop where
  /-- An approved canonical task of 382 bytes, whatever its options, keeps the values of its fields
  and gets default values of the appended ones. -/
  legacyTask : ∀ (accounts : MigrateTask) (t : LegacyTask),
    accounts.task.data = padTo oldTaskSize (LegacyTask.account.encode t) →
      ((∃ after, migrateTask rt accounts false = .ok after) ↔
        accounts.Approved rt ∧ accounts.task.owner = rt.programId ∧
          accounts.task.key = (canonicalTaskAddress rt t.migrated).1 ∧
          CanFund rt taskSize accounts.task accounts.payer) ∧
      ∀ after, migrateTask rt accounts false = .ok after →
        tryDeserialize Task.account after.task.data = some t.migrated
  /-- So does a task of 432 bytes. -/
  batch2Task : ∀ (accounts : MigrateTask) (t : Batch2Task),
    accounts.task.data = padTo batch2TaskSize (Batch2Task.account.encode t) →
      ((∃ after, migrateTask rt accounts false = .ok after) ↔
        accounts.Approved rt ∧ accounts.task.owner = rt.programId ∧
          accounts.task.key = (canonicalTaskAddress rt t.migrated).1 ∧
          CanFund rt taskSize accounts.task accounts.payer) ∧
      ∀ after, migrateTask rt accounts false = .ok after →
        tryDeserialize Task.account after.task.data = some t.migrated
  /-- A second approved run succeeds and changes nothing. -/
  taskAgain : ∀ accounts after, migrateTask rt accounts false = .ok after →
    ∀ next dryRun, next.task = after.task → next.Approved rt →
      migrateTask rt next dryRun = .ok next
  /-- The dry run accepts what the real run accepts with enough rent, and changes nothing. -/
  dryRun : ∀ accounts,
    ((∃ after, migrateTask rt accounts true = .ok after) ↔
      ∃ payer after, migrateTask rt { accounts with payer := payer } false = .ok after) ∧
    ∀ after, migrateTask rt accounts true = .ok after → after = accounts
  /-- Any other length below the present one, another discriminator, another owner or another
  address is rejected. -/
  taskRejected : ∀ (accounts : MigrateTask) (dryRun : Bool),
    (accounts.task.data.length < taskSize ∧ ¬OldTaskLength accounts.task.data.length ∨
      accounts.task.data.take 8 ≠ taskDiscriminator ∨ accounts.task.owner ≠ rt.programId ∨
      ∀ task, tryDeserialize Task.account (if taskSize ≤ accounts.task.data.length then
          accounts.task.data else padTo taskSize accounts.task.data) = some task →
        accounts.task.key ≠ (canonicalTaskAddress rt task).1) →
      ∀ after, migrateTask rt accounts dryRun ≠ .ok after
  /-- An approved configuration of 349 bytes keeps the values of its fields and gets surface
  revision zero. -/
  legacyConfig : ∀ (accounts : MigrateProtocol) (c : LegacyConfig),
    accounts.protocolConfig.data = LegacyConfig.account.encode c →
      (∀ target, (∃ after, migrateProtocol rt accounts target = .ok after) ↔
        accounts.protocolConfig.owner = rt.programId ∧
          accounts.protocolConfig.key = (rt.findProgramAddress [seed "protocol"]).1 ∧
          ConfigApproved rt accounts c.migrated ∧ c.protocolVersion = 1 ∧ target = 1 ∧
          CanFund rt configSize accounts.protocolConfig accounts.payer) ∧
      ∀ target after, migrateProtocol rt accounts target = .ok after →
        tryDeserialize ProtocolConfig.account after.protocolConfig.data = some c.migrated
  /-- A second approved run of the configuration sweep succeeds and changes nothing. -/
  configAgain : ∀ accounts target after, migrateProtocol rt accounts target = .ok after →
    ∀ next, next.protocolConfig = after.protocolConfig →
      (∀ config, CanonicalConfig rt next.protocolConfig config → ConfigApproved rt next config) →
      migrateProtocol rt next target = .ok next
  /-- The configuration sweep rejects alike. -/
  configRejected : ∀ (accounts : MigrateProtocol) (target : UInt8),
    (accounts.protocolConfig.data.length < configSize ∧
        accounts.protocolConfig.data.length ≠ oldConfigSize ∨
      accounts.protocolConfig.data.take 8 ≠ configDiscriminator ∨
      accounts.protocolConfig.owner ≠ rt.programId ∨
      accounts.protocolConfig.key ≠ (rt.findProgramAddress [seed "protocol"]).1) →
      ∀ after, migrateProtocol rt accounts target ≠ .ok after
  /-- The task sweep does the same before and after the configuration sweep. -/
  order : ∀ configAccounts target after,
    migrateProtocol rt configAccounts target = .ok after →
      ∀ (accounts : MigrateTask) (dryRun : Bool),
        accounts.protocolConfig = configAccounts.protocolConfig →
        migrateTask rt { accounts with protocolConfig := after.protocolConfig } dryRun =
          (migrateTask rt accounts dryRun).map fun result =>
            { result with protocolConfig := after.protocolConfig }
  /-- The loader of parent tasks reads the same task before and after the task sweep. -/
  loader : ∀ accounts after, migrateTask rt accounts false = .ok after →
    loadCanonicalParentTask rt after.task = loadCanonicalParentTask rt accounts.task

section sweeps

variable {rt : Runtime}

/-- A task account of an old length that reads, grown, as `task`: when it is migrated, and what it
reads as afterwards. -/
theorem migrateTask_of_old {accounts : MigrateTask} {task : Task}
    (hold : OldTaskLength accounts.task.data.length)
    (hread : tryDeserialize Task.account (padTo taskSize accounts.task.data) = some task) :
    ((∃ after, migrateTask rt accounts false = .ok after) ↔
      accounts.Approved rt ∧ accounts.task.owner = rt.programId ∧
        accounts.task.key = (canonicalTaskAddress rt task).1 ∧
        CanFund rt taskSize accounts.task accounts.payer) ∧
    ∀ after, migrateTask rt accounts false = .ok after →
      tryDeserialize Task.account after.task.data = some task := by
  have hshort : ¬taskSize ≤ accounts.task.data.length := Nat.not_le.mpr hold.lt
  refine ⟨⟨?_, ?_⟩, fun after h => ?_⟩
  · rintro ⟨after, h⟩
    obtain ⟨happroved, ⟨task', howner, hread', hkey⟩, hcases⟩ := migrateTask_eq_ok.mp h
    rw [if_neg hshort, hread] at hread'
    obtain rfl := Option.some.inj hread'
    rcases hcases with ⟨hsize, -⟩ | ⟨-, ⟨hdry, -⟩ | ⟨-, hfund, -⟩⟩
    · exact absurd hsize hshort
    · cases hdry
    · exact ⟨happroved, howner, hkey, hfund⟩
  · rintro ⟨happroved, howner, hkey, hfund⟩
    have hcanonical : CanonicalTask rt accounts.task task := by
      refine ⟨howner, ?_, hkey⟩
      rw [if_neg hshort, hread]
    exact ⟨_, migrateTask_eq_ok.mpr
      ⟨happroved, ⟨task, hcanonical⟩, .inr ⟨hold, .inr ⟨rfl, hfund, rfl⟩⟩⟩⟩
  · obtain ⟨-, -, ⟨hsize, -⟩ | ⟨-, ⟨hdry, -⟩ | ⟨-, -, rfl⟩⟩⟩ := migrateTask_eq_ok.mp h
    · exact absurd hsize hshort
    · cases hdry
    · exact hread

/-- A second run finds nothing to do. -/
theorem migrateTask_again {accounts after next : MigrateTask} {dryRun : Bool}
    (h : migrateTask rt accounts false = .ok after) (htask : next.task = after.task)
    (happroved : next.Approved rt) : migrateTask rt next dryRun = .ok next := by
  obtain ⟨hsize, hcanonical⟩ := migrateTask_canonical h
  rw [← htask] at hsize hcanonical
  exact migrateTask_eq_ok.mpr ⟨happroved, hcanonical, .inl ⟨hsize, rfl⟩⟩

/-- The dry run accepts what the real run accepts with enough rent. -/
theorem dryRun_accepts (accounts : MigrateTask) :
    (∃ after, migrateTask rt accounts true = .ok after) ↔
      ∃ payer after, migrateTask rt { accounts with payer := payer } false = .ok after := by
  constructor
  · rintro ⟨after, h⟩
    obtain ⟨happroved, hcanonical, hcases⟩ := migrateTask_eq_ok.mp h
    refine ⟨{ accounts.payer with lamports := rt.minimumBalance taskSize }, ?_⟩
    rcases hcases with ⟨hsize, -⟩ | ⟨hold, -⟩
    · exact ⟨_, migrateTask_eq_ok.mpr ⟨happroved, hcanonical, .inl ⟨hsize, rfl⟩⟩⟩
    · have hfund : CanFund rt taskSize accounts.task
          { accounts.payer with lamports := rt.minimumBalance taskSize } := Nat.sub_le _ _
      exact ⟨_, migrateTask_eq_ok.mpr
        ⟨happroved, hcanonical, .inr ⟨hold, .inr ⟨rfl, hfund, rfl⟩⟩⟩⟩
  · rintro ⟨payer, after, h⟩
    obtain ⟨happroved, hcanonical, hcases⟩ := migrateTask_eq_ok.mp h
    rcases hcases with ⟨hsize, -⟩ | ⟨hold, -⟩
    · exact ⟨_, migrateTask_eq_ok.mpr ⟨happroved, hcanonical, .inl ⟨hsize, rfl⟩⟩⟩
    · exact ⟨_, migrateTask_eq_ok.mpr ⟨happroved, hcanonical, .inr ⟨hold, .inl ⟨rfl, rfl⟩⟩⟩⟩

theorem dryRun_unchanged {accounts after : MigrateTask}
    (h : migrateTask rt accounts true = .ok after) : after = accounts := by
  obtain ⟨-, -, ⟨-, rfl⟩ | ⟨-, ⟨-, rfl⟩ | ⟨hreal, -⟩⟩⟩ := migrateTask_eq_ok.mp h
  · rfl
  · rfl
  · cases hreal

/-- Padding leaves the first bytes alone. -/
theorem take_padTo {m n : ℕ} {data : List UInt8} (hm : m ≤ data.length) (hn : m ≤ n) :
    (padTo n data).take m = data.take m := by
  rw [padTo, List.take_append_of_le_length (by rw [List.length_take]; omega), List.take_take,
    Nat.min_eq_left hn]

theorem migrateTask_rejects {accounts after : MigrateTask} {dryRun : Bool}
    (h : migrateTask rt accounts dryRun = .ok after) :
    (taskSize ≤ accounts.task.data.length ∨ OldTaskLength accounts.task.data.length) ∧
      accounts.task.data.take 8 = taskDiscriminator ∧
      ∃ task, CanonicalTask rt accounts.task task := by
  obtain ⟨-, ⟨task, hcanonical⟩, hcases⟩ := migrateTask_eq_ok.mp h
  have hlen := hcases.imp And.left And.left
  refine ⟨hlen, ?_, task, hcanonical⟩
  have hmark : (if taskSize ≤ accounts.task.data.length then accounts.task.data
      else padTo taskSize accounts.task.data).take 8 = taskDiscriminator :=
    take_of_tryDeserialize hcanonical.2.1
  split_ifs at hmark with hsize
  · exact hmark
  · have height : 8 ≤ accounts.task.data.length := by
      rcases hlen.resolve_left hsize with hlen | hlen
      all_goals
        rw [hlen]
        decide
    have hcut : 8 ≤ taskSize := by decide
    rw [← take_padTo height hcut, hmark]

/-- What the loader reads of an account of a known length. -/
theorem loadCanonicalParentTask_of_known {info : AccountInfo} {buf : List UInt8}
    (hknown : (info.data.length = oldTaskSize ∨ info.data.length = batch2TaskSize) ∨
      taskSize ≤ info.data.length)
    (hbuf : (if taskSize ≤ info.data.length then info.data else padTo taskSize info.data) = buf) :
    loadCanonicalParentTask rt info = (do
      require (info.owner = rt.programId) .InvalidAccountOwner
      let parent ← demand (tryDeserialize Task.account buf) .ParentTaskAccountRequired
      require (info.key = (canonicalTaskAddress rt parent).1) .ParentTaskAccountRequired
      require (parent.bump = (canonicalTaskAddress rt parent).2) .ParentTaskAccountRequired
      .ok parent) := by
  have hrequire : require ((info.data.length = oldTaskSize ∨ info.data.length = batch2TaskSize) ∨
      taskSize ≤ info.data.length) CoordinationError.ParentTaskAccountRequired = .ok () :=
    if_pos hknown
  simp only [loadCanonicalParentTask]
  rw [hrequire, hbuf]
  rfl

/-- The loader reads the grown account as it read the old one. -/
theorem loadCanonicalParentTask_migrated {accounts after : MigrateTask}
    (h : migrateTask rt accounts false = .ok after) :
    loadCanonicalParentTask rt after.task = loadCanonicalParentTask rt accounts.task := by
  obtain ⟨-, -, ⟨-, rfl⟩ | ⟨hold, ⟨hdry, -⟩ | ⟨-, -, rfl⟩⟩⟩ := migrateTask_eq_ok.mp h
  · rfl
  · cases hdry
  · have hsize : taskSize ≤ (grown rt taskSize accounts.task).data.length :=
      (length_padTo _ _).ge
    rw [loadCanonicalParentTask_of_known (.inl hold) (if_neg (Nat.not_le.mpr hold.lt)),
      loadCanonicalParentTask_of_known (.inr hsize) (if_pos hsize)]
    rfl

/-- Two computations that start alike differ by `g` if they do from there on. -/
theorem bind_eq_map {α β γ : Type} {x : Result α} {f : α → Result γ} {f' : α → Result β}
    {g : β → γ} (h : ∀ a, f a = (f' a).map g) : (x >>= f) = (x >>= f').map g := by
  cases x with
  | error e => rfl
  | ok a => exact h a

/-- The task sweep does the same before and after the configuration sweep. -/
theorem migrateTask_order {configAccounts configAfter : MigrateProtocol} {target : UInt8}
    (h : migrateProtocol rt configAccounts target = .ok configAfter) {accounts : MigrateTask}
    {dryRun : Bool} (hconfig : accounts.protocolConfig = configAccounts.protocolConfig) :
    migrateTask rt { accounts with protocolConfig := configAfter.protocolConfig } dryRun =
      (migrateTask rt accounts dryRun).map fun result =>
        { result with protocolConfig := configAfter.protocolConfig } := by
  obtain ⟨-, -, -, rfl⟩ := migrateProtocol_eq_ok.mp h
  have hload : loadConfig rt (migratedConfig rt configAccounts.protocolConfig) =
      loadConfig rt accounts.protocolConfig := by rw [loadConfig_migrated, hconfig]
  unfold migrateTask
  simp only [hload]
  -- the configuration is read once; every later step is the same on both sides
  refine bind_eq_map fun config => bind_eq_map fun _ => bind_eq_map fun _ => bind_eq_map fun _ =>
    bind_eq_map fun action => ?_
  cases action with
  | AlreadyMigrated => exact bind_eq_map fun _ => bind_eq_map fun _ => rfl
  | Realloc =>
    refine bind_eq_map fun _ => bind_eq_map fun _ => ?_
    cases dryRun with
    | true => rfl
    | false => exact bind_eq_map fun _ => rfl

/-- A configuration of 349 bytes: when it is migrated, and what it reads as afterwards. -/
theorem migrateProtocol_of_old {accounts : MigrateProtocol} {config : ProtocolConfig}
    (hold : accounts.protocolConfig.data.length = oldConfigSize)
    (hread : tryDeserialize ProtocolConfig.account
      (padTo configSize accounts.protocolConfig.data) = some config) :
    (∀ target, (∃ after, migrateProtocol rt accounts target = .ok after) ↔
      accounts.protocolConfig.owner = rt.programId ∧
        accounts.protocolConfig.key = (rt.findProgramAddress [seed "protocol"]).1 ∧
        ConfigApproved rt accounts config ∧ config.protocolVersion = 1 ∧ target = 1 ∧
        CanFund rt configSize accounts.protocolConfig accounts.payer) ∧
    ∀ target after, migrateProtocol rt accounts target = .ok after →
      tryDeserialize ProtocolConfig.account after.protocolConfig.data = some config := by
  have hshort : ¬configSize ≤ accounts.protocolConfig.data.length := by
    rw [hold]
    decide
  refine ⟨fun target => ⟨?_, ?_⟩, fun target after h => ?_⟩
  · rintro ⟨after, h⟩
    obtain ⟨⟨config', ⟨howner, hkey, hread'⟩, happroved, hversion⟩, htarget, hlen, -⟩ :=
      migrateProtocol_eq_ok.mp h
    rw [hread] at hread'
    obtain rfl := Option.some.inj hread'
    exact ⟨howner, hkey, happroved, hversion, htarget, (hlen.resolve_left hshort).2⟩
  · rintro ⟨howner, hkey, happroved, hversion, htarget, hfund⟩
    exact ⟨_, migrateProtocol_eq_ok.mpr ⟨⟨config, ⟨howner, hkey, hread⟩, happroved, hversion⟩,
      htarget, .inr ⟨hold, hfund⟩, rfl⟩⟩
  · obtain ⟨-, -, -, rfl⟩ := migrateProtocol_eq_ok.mp h
    show tryDeserialize _ (migratedConfig rt accounts.protocolConfig).data = some config
    rw [migratedConfig, if_pos hold]
    exact hread

/-- A second run of the configuration sweep finds nothing to do. -/
theorem migrateProtocol_again {accounts after next : MigrateProtocol} {target : UInt8}
    (h : migrateProtocol rt accounts target = .ok after)
    (hconfig : next.protocolConfig = after.protocolConfig)
    (happroved : ∀ config, CanonicalConfig rt next.protocolConfig config →
      ConfigApproved rt next config) : migrateProtocol rt next target = .ok next := by
  obtain ⟨⟨config, hcanonical, -, hversion⟩, htarget, hlen, rfl⟩ := migrateProtocol_eq_ok.mp h
  have hsize : configSize ≤ next.protocolConfig.data.length := by
    rw [hconfig]
    exact configSize_le_migrated (hlen.imp_right And.left)
  have hnext : CanonicalConfig rt next.protocolConfig config := by
    rw [hconfig]
    exact hcanonical.migrated
  refine migrateProtocol_eq_ok.mpr
    ⟨⟨config, hnext, happroved config hnext, hversion⟩, htarget, .inl hsize, ?_⟩
  rw [migratedConfig_of_le hsize, configPayer_of_le hsize]

theorem migrateProtocol_rejects {accounts after : MigrateProtocol} {target : UInt8}
    (h : migrateProtocol rt accounts target = .ok after) :
    (configSize ≤ accounts.protocolConfig.data.length ∨
        accounts.protocolConfig.data.length = oldConfigSize) ∧
      accounts.protocolConfig.data.take 8 = configDiscriminator ∧
      accounts.protocolConfig.owner = rt.programId ∧
      accounts.protocolConfig.key = (rt.findProgramAddress [seed "protocol"]).1 := by
  obtain ⟨⟨config, ⟨howner, hkey, hread⟩, -⟩, -, hlen, -⟩ := migrateProtocol_eq_ok.mp h
  refine ⟨hlen.imp_right And.left, ?_, howner, hkey⟩
  have hmark : (padTo configSize accounts.protocolConfig.data).take 8 = configDiscriminator :=
    take_of_tryDeserialize hread
  have height : 8 ≤ accounts.protocolConfig.data.length := by
    rcases hlen with hsize | ⟨hold, -⟩
    · have hcut : 8 ≤ configSize := by decide
      exact hcut.trans hsize
    · rw [hold]
      decide
  have hcut : 8 ≤ configSize := by decide
  rw [← take_padTo height hcut, hmark]

end sweeps

/-- **Migration.** Under every runtime, the two sweeps keep what the accounts say. -/
theorem migration_preserves_meaning (rt : Runtime) : MigrationSound rt where
  legacyTask accounts t hdata := by
    refine migrateTask_of_old (.inl ?_) ?_
    · rw [hdata, length_padTo]
    · rw [hdata]
      exact t.read_grown
  batch2Task accounts t hdata := by
    refine migrateTask_of_old (.inr ?_) ?_
    · rw [hdata, length_padTo]
    · rw [hdata]
      exact t.read_grown
  taskAgain _ _ h _ _ htask happroved := migrateTask_again h htask happroved
  dryRun accounts := ⟨dryRun_accepts accounts, fun _ => dryRun_unchanged⟩
  taskRejected accounts dryRun hbad after h := by
    obtain ⟨hlen, hmark, task, howner, hread, hkey⟩ := migrateTask_rejects h
    rcases hbad with ⟨hshort, hold⟩ | hbad | hbad | hbad
    · rcases hlen with hsize | hlen
      · exact absurd hsize (Nat.not_le.mpr hshort)
      · exact hold hlen
    · exact hbad hmark
    · exact hbad howner
    · exact hbad task hread hkey
  legacyConfig accounts c hdata := by
    refine migrateProtocol_of_old ?_ ?_
    · rw [hdata, c.account_width]
    · rw [hdata]
      exact c.read_grown
  configAgain _ _ _ h _ hconfig happroved := migrateProtocol_again h hconfig happroved
  configRejected accounts target hbad after h := by
    obtain ⟨hlen, hmark, howner, hkey⟩ := migrateProtocol_rejects h
    rcases hbad with ⟨hshort, hold⟩ | hbad | hbad | hbad
    · rcases hlen with hsize | hlen
      · exact absurd hsize (Nat.not_le.mpr hshort)
      · exact hold hlen
    · exact hbad hmark
    · exact hbad howner
    · exact hbad hkey
  order _ _ _ h _ _ hconfig := migrateTask_order h hconfig
  loader _ _ h := loadCanonicalParentTask_migrated h

end AgencCoordination.Layout

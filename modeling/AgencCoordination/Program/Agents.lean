import AgencCoordination.Program.Prelude

/-!
# Agents, throttles and protocol administration

Registration, update, suspension and retirement of agents, the per-wallet throttles of
`rate_limit_helpers.rs`, and the multisig instructions that change the protocol configuration.
An agent's address never changes hands: retirement keeps the account as a tombstone.
-/

namespace AgencCoordination

open Foundations

/-! ## Multisig -/

/-- `require_multisig_threshold`: enough of the stored owners are among the signers. -/
def requireMultisigThreshold (config : ProtocolConfig) (signers : List Pubkey) : Result Unit := do
  require (config.multisigOwners ≠ [] ∧ config.multisigOwners.length ≤ 5) .MultisigInvalidSigners
  require (2 ≤ config.multisigThreshold ∧
    config.multisigThreshold ≤ config.multisigOwners.length) .MultisigInvalidThreshold
  require (0 ∉ config.multisigOwners) .MultisigDefaultSigner
  require (config.multisigThreshold ≤ (config.multisigOwners.filter (· ∈ signers)).length)
    .MultisigNotEnoughSigners

/-! ## Throttles -/

/-- `RateLimitAction`. -/
inductive RateLimitAction
  | TaskCreation
  | DisputeInitiation
  deriving DecidableEq, Repr

/-- The start of the day `now` falls in. -/
def dayStart (now : ℤ) : ℤ := now / window24h * window24h

/-- `initialize_authority_rate_limit`. -/
def initializeAuthorityRateLimit (limit : AuthorityRateLimit) (authority : Pubkey) (now : ℤ) :
    AuthorityRateLimit :=
  if limit.authority = 0 then
    { limit with authority := authority, rateLimitWindowStart := dayStart now }
  else limit

/-- `maybe_reset_authority_window`. -/
def maybeResetAuthorityWindow (limit : AuthorityRateLimit) (now : ℤ) : AuthorityRateLimit :=
  if window24h ≤ now - limit.rateLimitWindowStart then
    { limit with rateLimitWindowStart := dayStart now, taskCount24h := 0, disputeCount24h := 0 }
  else limit

namespace RateLimitAction

def cooldown (config : ProtocolConfig) : RateLimitAction → ℤ
  | .TaskCreation => config.taskCreationCooldown
  | .DisputeInitiation => config.disputeInitiationCooldown

def maxPer24h (config : ProtocolConfig) : RateLimitAction → ℕ
  | .TaskCreation => config.maxTasksPer24h
  | .DisputeInitiation => config.maxDisputesPer24h

def lastTimestamp (limit : AuthorityRateLimit) : RateLimitAction → ℤ
  | .TaskCreation => limit.lastTaskCreated
  | .DisputeInitiation => limit.lastDisputeInitiated

def authorityCount (limit : AuthorityRateLimit) : RateLimitAction → ℕ
  | .TaskCreation => limit.taskCount24h
  | .DisputeInitiation => limit.disputeCount24h

def setTimestamp (limit : AuthorityRateLimit) (now : ℤ) : RateLimitAction → AuthorityRateLimit
  | .TaskCreation => { limit with lastTaskCreated := now }
  | .DisputeInitiation => { limit with lastDisputeInitiated := now }

def setCount (limit : AuthorityRateLimit) (count : ℕ) : RateLimitAction → AuthorityRateLimit
  | .TaskCreation => { limit with taskCount24h := count }
  | .DisputeInitiation => { limit with disputeCount24h := count }

end RateLimitAction

/-- `check_authority_rate_limits`: a cooldown between two actions of one wallet and a budget
for the day. -/
def checkAuthorityRateLimits (limit : AuthorityRateLimit) (authority : Pubkey)
    (config : ProtocolConfig) (now : ℤ) (action : RateLimitAction) :
    Result AuthorityRateLimit := do
  let limit := initializeAuthorityRateLimit limit authority now
  let last := action.lastTimestamp limit
  require (¬(0 < action.cooldown config ∧ 0 < last ∧ now - last < action.cooldown config))
    .CooldownNotElapsed
  let limit ←
    if 0 < action.maxPer24h config then do
      let limit := maybeResetAuthorityWindow limit now
      require (action.authorityCount limit < action.maxPer24h config) .RateLimitExceeded
      let count ← addU8 (action.authorityCount limit) 1
      pure (action.setCount limit count)
    else pure limit
  .ok (action.setTimestamp limit now)

/-- `synchronize_task_quota`. -/
def synchronizeTaskQuota (quota : AuthorityTaskQuota) (limit : AuthorityRateLimit) :
    Result AuthorityTaskQuota := do
  require (quota.authority = limit.authority) .InvalidTaskQuotaAccount
  require (quota.rateLimitWindowStart ≤ limit.rateLimitWindowStart) .CorruptedData
  if quota.rateLimitWindowStart < limit.rateLimitWindowStart then
    .ok { quota with
      rateLimitWindowStart := limit.rateLimitWindowStart, taskCount24h := limit.taskCount24h }
  else .ok { quota with taskCount24h := max quota.taskCount24h limit.taskCount24h }

/-- The throttle state one wallet's task creation reads and writes. -/
structure CreationThrottle where
  limit : AuthorityRateLimit
  quota : Option AuthorityTaskQuota
  deriving DecidableEq

/-- `check_task_creation_with_optional_quota`: without a quota account the daily budget
applies; with one, its larger budget. -/
def checkTaskCreationWithOptionalQuota (limit : AuthorityRateLimit)
    (quota : Option AuthorityTaskQuota) (authority : Pubkey) (config : ProtocolConfig) (now : ℤ) :
    Result CreationThrottle :=
  match quota with
  | none => do
      let limit ← checkAuthorityRateLimits limit authority config now .TaskCreation
      .ok ⟨limit, none⟩
  | some quota => do
      require (7 ≤ config.surfaceRevision) .TaskQuotaUnavailable
      require (quota.authority = authority) .InvalidTaskQuotaAccount
      require (256 ≤ quota.maxTasksPer24h ∧ quota.maxTasksPer24h ≤ 1000) .InvalidTaskQuota
      require (1 ≤ config.taskCreationCooldown ∧ 1 ≤ config.maxTasksPer24h)
        .RateLimitBelowMinimum
      let limit := maybeResetAuthorityWindow (initializeAuthorityRateLimit limit authority now) now
      let quota ← synchronizeTaskQuota quota limit
      if quota.enabled then do
        require (¬(0 < limit.lastTaskCreated ∧
          now - limit.lastTaskCreated < config.taskCreationCooldown)) .CooldownNotElapsed
        require (quota.taskCount24h < quota.maxTasksPer24h) .RateLimitExceeded
        let count := quota.taskCount24h + 1
        .ok ⟨{ limit with taskCount24h := min count 255, lastTaskCreated := now },
          some { quota with taskCount24h := count }⟩
      else do
        let limit ← checkAuthorityRateLimits limit authority config now .TaskCreation
        let quota ← synchronizeTaskQuota quota limit
        .ok ⟨limit, some quota⟩

/-! ## Agents -/

/-- `PROBATIONARY_REPUTATION`. -/
def probationaryReputation : ℕ := 3000

/-- `AgentRegistration::SIZE`. -/
def agentRegistrationSize : ℕ := 566

/-- `register_agent`. `prefunded` is what the new address already held. -/
def registerAgent (w : World) (key authority : Pubkey) (capabilities : BitVec 64)
    (stakeAmount prefunded : ℕ) : Result World := do
  require (w.agents.lookup key = none) .AccountAlreadyInUse
  require (capabilities ≠ 0) .InvalidCapabilities
  checkVersionCompatible w.config
  require (w.config.minAgentStake ≤ stakeAmount) .InsufficientStake
  let totalAgents ← addU64 w.config.totalAgents 1
  .ok { w with
    agents := w.agents.insert key
      ⟨max (w.sys.rent.minimumBalance agentRegistrationSize) prefunded + stakeAmount,
        { authority := authority
          capabilities := capabilities
          status := .Active
          registeredAt := w.sys.now
          lastActive := w.sys.now
          reputation := probationaryReputation
          stake := stakeAmount }⟩
    config := { w.config with totalAgents := totalAgents } }

/-- `update_agent`, for the fields other instructions read. -/
def updateAgent (w : World) (key signer : Pubkey) (capabilities : Option (BitVec 64))
    (status : Option AgentStatus) : Result World := do
  let agent ← demand (w.agents.lookup key) .AccountNotInitialized
  require (agent.data.authority = signer) .UnauthorizedAgent
  require (agent.data.retired = false) .AgentNotActive
  let nextUpdateAt ← addI64 agent.data.lastStateUpdate 60
  require (nextUpdateAt ≤ w.sys.now) .UpdateTooFrequent
  require (capabilities ≠ some 0) .InvalidCapabilities
  require (status ≠ none → agent.data.status ≠ .Suspended) .AgentSuspended
  require (status = some .Active → agent.data.activeTasks = 0) .AgentBusyWithTasks
  require (status ≠ some .Suspended) .InvalidInput
  .ok { w with agents := w.agents.insert key { agent with data := { agent.data with
    capabilities := capabilities.getD agent.data.capabilities
    status := status.getD agent.data.status
    lastActive := w.sys.now
    lastStateUpdate := w.sys.now } } }

/-- `suspend_agent`: the protocol authority with its multisig. -/
def suspendAgent (w : World) (key signer : Pubkey) (signers : List Pubkey) : Result World := do
  require (w.config.authority = signer) .UnauthorizedAgent
  requireMultisigThreshold w.config signers
  let agent ← demand (w.agents.lookup key) .AccountNotInitialized
  require (agent.data.retired = false) .AgentNotActive
  require (agent.data.status ≠ .Suspended) .AgentSuspended
  .ok { w with agents := w.agents.insert key { agent with data := { agent.data with
    status := .Suspended, lastStateUpdate := w.sys.now } } }

/-- `unsuspend_agent`. -/
def unsuspendAgent (w : World) (key signer : Pubkey) (signers : List Pubkey) : Result World := do
  require (w.config.authority = signer) .UnauthorizedAgent
  requireMultisigThreshold w.config signers
  let agent ← demand (w.agents.lookup key) .AccountNotInitialized
  require (agent.data.retired = false) .AgentNotActive
  require (agent.data.status = .Suspended) .InvalidInput
  .ok { w with agents := w.agents.insert key { agent with data := { agent.data with
    status := .Inactive, lastStateUpdate := w.sys.now } } }

/-- `deregister_agent`: an agent leaves without claims, bids, disputes or votes outstanding,
takes its stake along, and stays behind as a retired record. The reputation stake is an account
outside the model, given by its balance. -/
def deregisterAgent (w : World) (key signer : Pubkey) (reputationStake : ℕ) :
    Result (World × List Transfer) := do
  let agent ← demand (w.agents.lookup key) .AccountNotInitialized
  require (agent.data.authority = signer) .UnauthorizedAgent
  require (agent.data.status ≠ .Suspended) .AgentSuspended
  require (agent.data.retired = false) .AgentNotActive
  require (agent.data.activeTasks = 0) .AgentHasActiveTasks
  require (reputationStake = 0) .ReputationStakeNotWithdrawn
  require (agent.data.disputesAsDefendant = 0) .ActiveDisputesExist
  require (agent.data.activeDisputeVotes = 0) .ActiveDisputeVotes
  require (0 < agent.data.lastVoteTimestamp → 86400 < w.sys.now - agent.data.lastVoteTimestamp)
    .RecentVoteActivity
  require (((w.bidders.lookup key).map BidderMarketState.activeBidCount).getD 0 = 0)
    .AgentHasActiveBids
  let totalAgents ← subU w.config.totalAgents 1
  let rentMinimum := w.sys.rent.minimumBalance agentRegistrationSize
  let refundable ← checkedSub agent.lamports rentMinimum .InsufficientFunds
  require (agent.data.stake ≤ refundable) .InsufficientFunds
  .ok ({ w with
    agents := w.agents.insert key ⟨rentMinimum, { agent.data with
      stake := 0, lastStateUpdate := w.sys.now, status := .Inactive, retired := true }⟩
    config := { w.config with totalAgents := totalAgents } },
    [⟨.agent key, signer, .closingBalance, refundable⟩])

/-- Writers of an agent's reputation and vote time outside the model (ratings, reputation
stakes, governance votes): any new values. -/
def touchAgent (w : World) (key : Pubkey) (reputation : ℕ) (lastVoteTimestamp : ℤ) :
    Result World := do
  let agent ← demand (w.agents.lookup key) .AccountNotInitialized
  .ok { w with agents := w.agents.insert key { agent with data := { agent.data with
    reputation := reputation, lastVoteTimestamp := lastVoteTimestamp } } }

/-! ## Protocol configuration -/

/-- `update_protocol_fee`, and the fee change of an executed proposal. -/
def updateProtocolFee (w : World) (signers : List Pubkey) (protocolFeeBps : ℕ) :
    Result World := do
  require (protocolFeeBps ≤ 2000) .InvalidProtocolFee
  requireMultisigThreshold w.config signers
  .ok { w with config := { w.config with protocolFeeBps := protocolFeeBps } }

/-- `update_treasury`: the new treasury is a wallet that signs. -/
def updateTreasury (w : World) (signers : List Pubkey) (newTreasury : Pubkey) : Result World := do
  requireMultisigThreshold w.config signers
  require (newTreasury ≠ 0) .InvalidTreasury
  require (newTreasury ≠ w.config.treasury) .InvalidInput
  .ok { w with config := { w.config with treasury := newTreasury } }

/-- `update_launch_controls` and `stamp_release_surface`, without the release attestation. -/
def updateLaunchControls (w : World) (signers : List Pubkey) (protocolPaused : Bool)
    (disabledTaskTypeMask : List TaskType) (surfaceRevision : ℕ) : Result World := do
  requireMultisigThreshold w.config signers
  require (surfaceRevision ≤ 8) .InvalidSurfaceRevision
  .ok { w with config := { w.config with
    protocolPaused := protocolPaused
    disabledTaskTypeMask := disabledTaskTypeMask
    surfaceRevision := surfaceRevision } }

/-- `update_rate_limits`, and the rate-limit change of an executed proposal. -/
def updateRateLimits (w : World) (signers : List Pubkey) (taskCreationCooldown : ℤ)
    (maxTasksPer24h : ℕ) (disputeInitiationCooldown : ℤ) (maxDisputesPer24h : ℕ)
    (minStakeForDispute : ℕ) : Result World := do
  requireMultisigThreshold w.config signers
  require (1 ≤ taskCreationCooldown ∧ 1 ≤ disputeInitiationCooldown ∧ 1 ≤ maxTasksPer24h ∧
    1 ≤ maxDisputesPer24h) .RateLimitBelowMinimum
  require (taskCreationCooldown ≤ 604800 ∧ disputeInitiationCooldown ≤ 604800) .CooldownTooLong
  require (maxTasksPer24h < u8Limit ∧ maxDisputesPer24h < u8Limit) .RateLimitTooHigh
  require (1000 ≤ minStakeForDispute ∧ minStakeForDispute ≤ 1000000000 ∧
    minStakeForDispute ≤ w.config.minAgentStake) .InvalidInput
  .ok { w with config := { w.config with
    taskCreationCooldown := taskCreationCooldown
    maxTasksPer24h := maxTasksPer24h
    disputeInitiationCooldown := disputeInitiationCooldown
    maxDisputesPer24h := maxDisputesPer24h
    minStakeForDispute := minStakeForDispute } }

/-- `configure_task_creation_quota`. -/
def configureTaskCreationQuota (w : World) (signers : List Pubkey) (taskAuthority : Pubkey)
    (maxTasksPer24h : ℕ) (enabled : Bool) : Result World := do
  checkVersionCompatibleForExit w.config
  requireMultisigThreshold w.config signers
  require (taskAuthority ≠ 0) .InvalidInput
  require (256 ≤ maxTasksPer24h ∧ maxTasksPer24h ≤ 1000) .InvalidTaskQuota
  let limit := maybeResetAuthorityWindow (initializeAuthorityRateLimit
    ((w.rateLimits.lookup taskAuthority).getD {}) taskAuthority w.sys.now) w.sys.now
  let quota := (w.quotas.lookup taskAuthority).getD
    { authority := taskAuthority
      rateLimitWindowStart := limit.rateLimitWindowStart
      taskCount24h := limit.taskCount24h }
  let quota ← synchronizeTaskQuota quota limit
  .ok { w with
    rateLimits := w.rateLimits.insert taskAuthority limit
    quotas := w.quotas.insert taskAuthority
      { quota with maxTasksPer24h := maxTasksPer24h, enabled := enabled } }

end AgencCoordination

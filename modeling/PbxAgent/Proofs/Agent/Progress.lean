import PbxAgent.Proofs.Agent.Run
import PbxAgent.Proofs.Handshake.Challenges

/-!
# How far a run has come

The stage of the handshake and the digest in the identity can be read off what happened since the last
restart (`progress_told`). No message is refused for coming at an odd time, so what tells is the last
challenge or rotation that was accepted.
-/

namespace PbxAgent.Site

/-! ## The past of a run -/

/-- An input with the site that it met. -/
structure Moment where
  site : Site
  input : Input

namespace Moment

/-- What came of the input. -/
def outcome (m : Moment) : Outcome :=
  (m.site.step m.input).1

/-- Whether the handshake begins anew. -/
def restarts (m : Moment) : Bool :=
  match m.input with
  | .reset | .identify => true
  | _ => false

/-- Whether it is told that the identity has been sent. -/
def tellsSent (m : Moment) : Bool :=
  match m.input with
  | .identitySent => true
  | _ => false

/-- The command that was accepted, with its data. -/
def accepted? (m : Moment) : Option (AdminCommand × Bytes) :=
  match m.input with
  | .frame _ b =>
    match Frame.parse b, m.outcome with
    | .ok (.admin message), .ok _ =>
      (AdminCommand.ofCode? message.command).map fun c => (c, message.data)
    | _, _ => none
  | _ => none

/-- Whether a command was accepted. -/
def accepts (m : Moment) (c : AdminCommand) : Bool :=
  m.accepted?.map Prod.fst = some c

/-- Whether a challenge was answered or the passwords were changed. -/
def authenticates (m : Moment) : Bool :=
  m.accepts .receiveChallenge || m.accepts .receiveAdminPassword

/-- Whether a challenge was accepted that a digest answers, for an identity and under the login password
that was then in the vault. -/
def AnsweredBy (m : Moment) (identity : Identity) (vault : Vault) (paths : CredentialPaths)
    (digest : String) : Prop :=
  ∃ data challenge password,
    m.accepted? = some (.receiveChallenge, data)
      ∧ Handshake.payload Handshake.challengeDecoder data = .ok challenge
      ∧ vault.load paths.loginPassword m.site.host.files = .ok password
      ∧ Credential.loginDigest identity.id identity.product identity.version challenge
          (Text.Utf8.decodeLossy password) = .ok digest

end Moment

/-- What has happened so far, the latest first. -/
abbrev Past := List Moment

/-- What has happened once inputs have been handed over, after a past. -/
def record (s : Site) (past : Past) : List Input → Past
  | [] => past
  | i :: is => (s.step i).2.record (⟨s, i⟩ :: past) is

/-- The past of a run is what its log tells, backwards. -/
theorem map_record (s : Site) (past : Past) (is : List Input) :
    ((s.record past is).map fun m => (m.input, m.outcome))
      = (s.run is).1.reverse ++ past.map fun m => (m.input, m.outcome) := by
  induction is generalizing s past with
  | nil => rfl
  | cons i is ih =>
    rw [record, ih, run, List.reverse_cons, List.append_assoc]
    rfl

namespace Past

/-- What happened since the last restart. -/
def since (past : Past) : Past :=
  past.takeWhile (!·.restarts)

/-- The last restart. -/
def restart? (past : Past) : Option Input :=
  (past.find? Moment.restarts).map Moment.input

/-- The stage that a past leads to. -/
def stage (past : Past) : Stage :=
  match past.since.find? Moment.authenticates with
  | some m => if m.accepts .receiveChallenge then .authenticated else .passwordsRotated
  | none =>
    match past.restart? with
    | some .identify =>
      if past.since.any Moment.tellsSent then .awaitingChallenge else .identified
    | _ => .idle

/-- The challenge accepted last since the last restart. -/
def challenge? (past : Past) : Option Moment :=
  past.since.find? fun m => m.accepts .receiveChallenge

end Past

/-! ## Moments -/

namespace Moment

variable {s : Site} {handler : Handler} {b : Bytes} {m : Moment} {c : AdminCommand} {data : Bytes}

theorem accepts_of_accepted? (h : m.accepted? = some (c, data)) (d : AdminCommand) :
    m.accepts d = decide (c = d) := by
  simp [accepts, h]

theorem accepts_of_accepted?_none (h : m.accepted? = none) : m.accepts c = false := by
  simp [accepts, h]

theorem authenticates_of_accepted?_none (h : m.accepted? = none) : m.authenticates = false := by
  rw [authenticates, accepts_of_accepted?_none h, accepts_of_accepted?_none h]
  rfl

/-- Nothing is accepted but administrative messages. -/
theorem accepted?_of_parse (h : ∀ message, Frame.parse b ≠ .ok (.admin message)) :
    accepted? ⟨s, .frame handler b⟩ = none := by
  unfold accepted?
  dsimp only
  split
  · exact absurd ‹_› (h _)
  · rfl

theorem accepted?_of_error {e : AgentError} (h : outcome ⟨s, .frame handler b⟩ = .error e) :
    accepted? ⟨s, .frame handler b⟩ = none := by
  unfold accepted?
  dsimp only
  rw [h]
  split
  · cases ‹Except.error e = Except.ok _›
  · rfl

theorem accepted?_of_ok {message : AdminMessage} {r : Option Bytes}
    (hp : Frame.parse b = .ok (.admin message))
    (command : AdminCommand.ofCode? message.command = some c)
    (h : outcome ⟨s, .frame handler b⟩ = .ok r) :
    accepted? ⟨s, .frame handler b⟩ = some (c, message.data) := by
  simp only [accepted?, hp, h, command, Option.map_some]

end Moment

/-! ## Stages -/

namespace Past

variable {past : Past} {m : Moment}

theorem since_cons_of_restarts (h : m.restarts = true) : since (m :: past) = [] := by
  rw [since, List.takeWhile_cons_of_neg (by simp [h])]

theorem since_cons (h : m.restarts = false) : since (m :: past) = m :: past.since := by
  rw [since, List.takeWhile_cons_of_pos (by simp [h])]
  rfl

theorem restart?_cons_of_restarts (h : m.restarts = true) :
    restart? (m :: past) = some m.input := by
  rw [restart?, List.find?_cons_of_pos h, Option.map_some]

theorem restart?_cons (h : m.restarts = false) : restart? (m :: past) = past.restart? := by
  rw [restart?, restart?, List.find?_cons_of_neg (by simp [h])]

theorem stage_cons_of_restarts (h : m.restarts = true) :
    stage (m :: past) = match m.input with | .identify => .identified | _ => .idle := by
  rw [stage, since_cons_of_restarts h, restart?_cons_of_restarts h]
  cases m.input with
  | identify | reset | identitySent | frame => rfl

theorem stage_cons_of_authenticates (h : m.restarts = false) (hm : m.authenticates = true) :
    stage (m :: past)
      = if m.accepts .receiveChallenge then .authenticated else .passwordsRotated := by
  rw [stage, since_cons h, List.find?_cons_of_pos hm]

theorem stage_cons_of_quiet (h : m.restarts = false) (hm : m.authenticates = false)
    (hs : m.tellsSent = false) : stage (m :: past) = past.stage := by
  rw [stage, stage, since_cons h, restart?_cons h, List.find?_cons_of_neg (by simp [hm]),
    List.any_cons, hs, Bool.false_or]

/-- Only an identity that is ready can be told to have been sent. -/
theorem stage_cons_of_tellsSent (h : m.restarts = false) (hm : m.authenticates = false)
    (hs : m.tellsSent = true) :
    stage (m :: past) = if past.stage = .identified then .awaitingChallenge else past.stage := by
  rw [stage, stage, since_cons h, restart?_cons h, List.find?_cons_of_neg (by simp [hm]),
    List.any_cons, hs, Bool.true_or, if_pos rfl]
  split
  · split
    · rfl
    · rfl
  · split
    · split
      · rfl
      · rfl
    · rfl

theorem challenge?_cons_of_restarts (h : m.restarts = true) : challenge? (m :: past) = none := by
  rw [challenge?, since_cons_of_restarts h, List.find?_nil]

theorem challenge?_cons_of_accepts (h : m.restarts = false)
    (hm : m.accepts .receiveChallenge = true) : challenge? (m :: past) = some m := by
  rw [challenge?, since_cons h, List.find?_cons_of_pos (by exact hm)]

theorem challenge?_cons (h : m.restarts = false) (hm : m.accepts .receiveChallenge = false) :
    challenge? (m :: past) = past.challenge? := by
  rw [challenge?, challenge?, since_cons h, List.find?_cons_of_neg (by simp [hm])]

theorem stage_eq_iff (past : Past) :
    past.stage = .authenticated ∨ past.stage = .passwordsRotated
      ↔ ∃ m ∈ past.since, m.authenticates = true := by
  unfold stage
  split
  next m hm =>
    refine iff_of_true ?_ ⟨m, List.mem_of_find?_eq_some hm, List.find?_some hm⟩
    split
    · exact .inl rfl
    · exact .inr rfl
  next hm =>
    refine iff_of_false ?_ ?_
    · split
      · split
        · simp
        · simp
      · simp
    · rintro ⟨m, hmem, h⟩
      exact List.find?_eq_none.1 hm m hmem h

end Past

/-! ## What a past tells -/

/-- Whether a handshake is of a configuration, and has the stage and the digest that a past tells. -/
structure Told (identity : Identity) (vault : Vault) (paths : CredentialPaths) (past : Past)
    (h : Handshake) : Prop where
  vault_eq : h.vault = vault
  paths_eq : h.paths = paths
  identity_eq : h.identity.withoutDigest = identity.withoutDigest
  stage_eq : h.stage = past.stage
  unanswered : past.challenge? = none → h.identity.digest = ""
  answered : ∀ m, past.challenge? = some m → m.AnsweredBy identity vault paths h.identity.digest

namespace Told

variable {identity : Identity} {vault : Vault} {paths : CredentialPaths} {past : Past} {m : Moment}
  {h : Handshake} {data : Bytes}

/-- A restart clears the digest. -/
theorem restart (k : Told identity vault paths past h) (hm : m.restarts = true) {stage : Stage}
    (hstage : Past.stage (m :: past) = stage) :
    Told identity vault paths (m :: past)
      { h with identity := h.identity.withoutDigest, stage := stage } where
  vault_eq := k.vault_eq
  paths_eq := k.paths_eq
  identity_eq := k.identity_eq
  stage_eq := hstage.symm
  unanswered _ := rfl
  answered := by
    rw [Past.challenge?_cons_of_restarts hm]
    rintro m' ⟨⟩

/-- Without a challenge accepted or a restart, nothing but the stage may change. -/
theorem carry (k : Told identity vault paths past h)
    (hc : Past.challenge? (m :: past) = past.challenge?) {stage : Stage}
    (hstage : Past.stage (m :: past) = stage) :
    Told identity vault paths (m :: past) { h with stage := stage } where
  vault_eq := k.vault_eq
  paths_eq := k.paths_eq
  identity_eq := k.identity_eq
  stage_eq := hstage.symm
  unanswered := by
    rw [hc]
    exact k.unanswered
  answered := by
    rw [hc]
    exact k.answered

theorem identitySent (k : Told identity vault paths past h) (hm : m.restarts = false)
    (ha : m.accepted? = none) (hs : m.tellsSent = true) :
    Told identity vault paths (m :: past) h.identitySent := by
  have hstage : Past.stage (m :: past)
      = if h.stage = .identified then .awaitingChallenge else h.stage := by
    rw [k.stage_eq]
    exact Past.stage_cons_of_tellsSent hm (Moment.authenticates_of_accepted?_none ha) hs
  have hchallenge : Past.challenge? (m :: past) = past.challenge? :=
    Past.challenge?_cons hm (Moment.accepts_of_accepted?_none ha)
  unfold Handshake.identitySent
  split
  next hi =>
    rw [if_pos hi] at hstage
    exact k.carry hchallenge hstage
  next hi =>
    rw [if_neg hi] at hstage
    exact k.carry hchallenge hstage

/-- What neither restarts nor tells nor accepts one of the two changes nothing. -/
theorem quiet (k : Told identity vault paths past h) (hm : m.restarts = false)
    (ha : m.authenticates = false) (hs : m.tellsSent = false) :
    Told identity vault paths (m :: past) h := by
  have hstage : Past.stage (m :: past) = h.stage := by
    rw [k.stage_eq]
    exact Past.stage_cons_of_quiet hm ha hs
  exact k.carry (Past.challenge?_cons hm (Bool.or_eq_false_iff.1 ha).1) hstage

theorem authenticated (k : Told identity vault paths past h) (hm : m.restarts = false)
    (ha : m.accepted? = some (.receiveChallenge, data)) {digest : String}
    (answer : h.answer data m.site.host = .ok digest) :
    Told identity vault paths (m :: past) (h.authenticated digest) := by
  have hc : m.accepts .receiveChallenge = true := Moment.accepts_of_accepted? ha _
  have hauth : m.authenticates = true := by rw [Moment.authenticates, hc, Bool.true_or]
  refine ⟨k.vault_eq, k.paths_eq, k.identity_eq, ?_, ?_, ?_⟩
  · rw [Past.stage_cons_of_authenticates hm hauth, hc, if_pos rfl]
    rfl
  · rw [Past.challenge?_cons_of_accepts hm hc]
    nofun
  · rw [Past.challenge?_cons_of_accepts hm hc]
    rintro _ ⟨⟩
    obtain ⟨challenge, password, hpayload, hload, hdigest⟩ := Handshake.answer_eq_ok.1 answer
    rw [k.vault_eq, k.paths_eq] at hload
    -- Of the identity, the digest is made from members other than itself.
    have hid := congrArg Identity.id k.identity_eq
    have hproduct := congrArg Identity.product k.identity_eq
    have hversion := congrArg Identity.version k.identity_eq
    simp only [Identity.withoutDigest] at hid hproduct hversion
    rw [hid, hproduct, hversion] at hdigest
    exact ⟨data, challenge, password, ha, hpayload, hload, hdigest⟩

theorem rotated (k : Told identity vault paths past h) (hm : m.restarts = false)
    (ha : m.accepted? = some (.receiveAdminPassword, data)) :
    Told identity vault paths (m :: past) { h with stage := .passwordsRotated } := by
  have hc : m.accepts .receiveChallenge = false := Moment.accepts_of_accepted? ha _
  have hr : m.accepts .receiveAdminPassword = true := Moment.accepts_of_accepted? ha _
  have hauth : m.authenticates = true := by rw [Moment.authenticates, hr, Bool.or_true]
  have hstage : Past.stage (m :: past) = .passwordsRotated := by
    rw [Past.stage_cons_of_authenticates hm hauth, hc, if_neg Bool.false_ne_true]
  exact k.carry (Past.challenge?_cons hm hc) hstage

variable {s : Site}

/-- A frame tells by what is accepted with it. -/
theorem frame (k : Told identity vault paths past s.agent.handshake) (handler : Handler) (b : Bytes) :
    Told identity vault paths (⟨s, .frame handler b⟩ :: past)
      (s.step (.frame handler b)).2.agent.handshake := by
  have silent (ha : Moment.accepted? ⟨s, .frame handler b⟩ = none) :
      Told identity vault paths (⟨s, .frame handler b⟩ :: past) s.agent.handshake :=
    k.quiet rfl (Moment.authenticates_of_accepted?_none ha) rfl
  have handed := s.step_handed handler b
  rcases hstep : s.step (.frame handler b) with ⟨o, u⟩
  have houtcome : Moment.outcome ⟨s, .frame handler b⟩ = o := congrArg Prod.fst hstep
  rw [hstep] at handed
  cases handed with
  | malformed parse | tunnel parse => exact silent (Moment.accepted?_of_parse (by simp [parse]))
  | admin parse reaction =>
    cases reaction with
    | notKept | notRotated | refused => exact silent (Moment.accepted?_of_error houtcome)
    | kept command =>
      have ha := Moment.accepted?_of_ok parse command houtcome
      refine k.quiet rfl ?_ rfl
      rw [Moment.authenticates, Moment.accepts_of_accepted? ha, Moment.accepts_of_accepted? ha]
      rfl
    | answered command answer =>
      exact k.authenticated rfl (Moment.accepted?_of_ok parse command houtcome) answer
    | rotated command => exact k.rotated rfl (Moment.accepted?_of_ok parse command houtcome)

theorem step (k : Told identity vault paths past s.agent.handshake) (i : Input) :
    Told identity vault paths (⟨s, i⟩ :: past) (s.step i).2.agent.handshake := by
  cases i with
  | frame handler b => exact k.frame handler b
  | identify => exact k.restart rfl (Past.stage_cons_of_restarts rfl)
  | identitySent => exact k.identitySent rfl rfl rfl
  | reset => exact k.restart rfl (Past.stage_cons_of_restarts rfl)

theorem run (k : Told identity vault paths past s.agent.handshake) (is : List Input) :
    Told identity vault paths (s.record past is) (s.run is).2.agent.handshake := by
  induction is generalizing s past with
  | nil => exact k
  | cons i is ih => exact ih (k.step i)

end Told

theorem told_new (identity : Identity) (vault : Vault) (paths : CredentialPaths) :
    Told identity vault paths [] (.new identity vault paths) where
  vault_eq := rfl
  paths_eq := rfl
  identity_eq := rfl
  stage_eq := rfl
  unanswered _ := rfl
  answered := by rintro m ⟨⟩

/-- **How far a run has come.** At any time in a run from where nothing has been said, on whatever host:
the past is what the log tells, and the stage is the one that the past leads to. The backend counts as
authenticated if a challenge or a rotation was accepted since the last restart. The digest is empty if
no challenge was; else it is 64 small hexadecimal digits, and answers the last one under the login
password that was then in the vault. All else in the identity is as configured. -/
theorem progress_told (identity : Identity) (vault : Vault) (paths : CredentialPaths)
    (tunnels : Tunnel.Table) (host : Host) (inputs : List Input) :
    let s : Site := ⟨⟨.new identity vault paths, tunnels⟩, host⟩
    let past : Past := s.record [] inputs
    let now := (s.run inputs).2.agent
    let digest := now.handshake.identity.digest
    (past.map fun m => (m.input, m.outcome)) = (s.run inputs).1.reverse
      ∧ now.handshake.stage = past.stage
      ∧ (now.isAuthenticated = true ↔ ∃ m ∈ past.since,
          m.accepts .receiveChallenge = true ∨ m.accepts .receiveAdminPassword = true)
      ∧ (digest = "" ↔ ∀ m ∈ past.since, m.accepts .receiveChallenge = false)
      ∧ (∀ m, past.challenge? = some m → m.AnsweredBy identity vault paths digest
          ∧ digest.length = 64 ∧ ∀ c ∈ digest.toList, c ∈ "0123456789abcdef".toList)
      ∧ now.handshake.identity.withoutDigest = identity.withoutDigest := by
  intro s past now digest
  have k : Told identity vault paths past now.handshake :=
    (told_new identity vault paths).run (s := s) inputs
  refine ⟨?_, k.stage_eq, ?_, ?_, ?_, k.identity_eq⟩
  · exact (s.map_record [] inputs).trans (List.append_nil _)
  · rw [Agent.isAuthenticated, Bool.or_eq_true, decide_eq_true_eq, decide_eq_true_eq, k.stage_eq,
      Past.stage_eq_iff]
    simp only [Moment.authenticates, Bool.or_eq_true]
  · constructor
    · intro hdigest
      cases hc : past.challenge? with
      | none => simpa using List.find?_eq_none.1 hc
      | some m =>
        obtain ⟨_, _, _, -, -, -, answer⟩ := k.answered m hc
        exact absurd hdigest (Credential.ne_empty_of_loginDigest answer)
    · intro hnone
      exact k.unanswered (List.find?_eq_none.2 (by simpa using hnone))
  · intro m hc
    obtain ⟨_, _, _, -, -, -, answer⟩ := k.answered m hc
    exact ⟨k.answered m hc, Credential.length_of_loginDigest answer,
      fun c => Credential.mem_of_loginDigest answer⟩

end PbxAgent.Site

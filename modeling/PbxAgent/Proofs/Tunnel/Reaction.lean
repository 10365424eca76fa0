import PbxAgent.Tunnel.Table

/-!
# Reactions of the session table

All that a message can do to the table, case by case (`Reaction`): what it does concerns the session
of its own number only. Later arguments go by these cases and leave `Table.handle` closed.
-/

namespace PbxAgent.Tunnel

namespace Table

/-! ## The session of a number -/

/-- The session of a number; one that is not open counts as one that was never answered. -/
def session (t : Table) (id : SessionId) : Session :=
  (t.get? id).getD { id := id }

theorem id_of_get? {t : Table} {id : SessionId} {s : Session} (h : t.get? id = some s) :
    s.id = id := by
  simpa using List.find?_some h

@[simp] theorem id_session (t : Table) (id : SessionId) : (t.session id).id = id := by
  unfold session
  cases h : t.get? id with
  | none => rfl
  | some s => exact id_of_get? h

theorem session_of_get? {t : Table} {id : SessionId} {s : Session} (h : t.get? id = some s) :
    t.session id = s := by
  rw [session, h, Option.getD_some]

theorem session_of_get?_none {t : Table} {id : SessionId} (h : t.get? id = none) :
    t.session id = { id := id } := by
  rw [session, h, Option.getD_none]

theorem session_congr {t u : Table} {id : SessionId} (h : t.get? id = u.get? id) :
    t.session id = u.session id := by
  rw [session, session, h]

theorem isOpen_congr {t u : Table} {id : SessionId} (h : t.get? id = u.get? id) :
    t.isOpen id = u.isOpen id := by
  rw [isOpen, isOpen, h]

theorem get?_set_of_id (t : Table) (s : Session) {id : SessionId} (h : s.id = id) :
    (t.set s).get? id = some s := by
  rw [← h, t.get?_set_self]

/-- The later of two sessions put in place of one number stays. -/
theorem set_set (t : Table) {s r : Session} (h : s.id = r.id) : (t.set s).set r = t.set r := by
  have hfilter : (t.sessions.filter (·.id ≠ r.id)).filter (·.id ≠ r.id)
      = t.sessions.filter (·.id ≠ r.id) := by simp
  unfold set
  congr 1
  rw [List.filter_cons_of_neg (by simp [h]), h, hfilter]

theorem openSession_of_isOpen {t : Table} {id : SessionId} (h : t.isOpen id = true) :
    t.openSession id = t := by
  rw [openSession, if_pos h]

theorem openSession_of_not_isOpen {t : Table} {id : SessionId} (h : t.isOpen id = false) :
    t.openSession id = t.set { id := id } := by
  rw [openSession, h, if_neg Bool.false_ne_true]

@[simp] theorem pieceSize_openSession (t : Table) (id : SessionId) :
    (t.openSession id).pieceSize = t.pieceSize := by
  unfold openSession
  split <;> rfl

theorem get?_openSession_self (t : Table) (id : SessionId) :
    (t.openSession id).get? id = some (t.session id) := by
  cases h : t.get? id with
  | none =>
    rw [openSession_of_not_isOpen (by rw [isOpen, h]; rfl), session_of_get?_none h]
    exact t.get?_set_self { id := id }
  | some s => rw [openSession_of_isOpen (by rw [isOpen, h]; rfl), session_of_get? h, h]

theorem get?_openSession_ne (t : Table) {id other : SessionId} (h : other ≠ id) :
    (t.openSession id).get? other = t.get? other := by
  unfold openSession
  split
  · rfl
  · exact t.get?_set_ne h

/-- Opening a session in front of putting one in its place makes no difference. -/
theorem set_openSession (t : Table) (s : Session) : (t.openSession s.id).set s = t.set s := by
  unfold openSession
  split
  · rfl
  · exact t.set_set rfl

end Table

/-! ## Cases -/

/-- What a message may do to a table, with the reply that it gets. -/
inductive Reaction (handler : Handler) (t : Table) (m : TunnelMessage) :
    Except AgentError TunnelMessage → Table → Prop where
  /-- A request that cannot be read opens the session all the same. -/
  | unreadable {e : Http.RequestError} (event : TunnelEvent.ofCode? m.event = some .send)
      (parse : Http.Request.parse m.data = .error e) :
      Reaction handler t m (.error (.protocol (.request e))) (t.openSession m.session)
  /-- So does one that the handler has no response to. -/
  | unanswered {request : Http.Request} {text : String}
      (event : TunnelEvent.ofCode? m.event = some .send)
      (parse : Http.Request.parse m.data = .ok request) (answer : handler request = .error text) :
      Reaction handler t m (.error (.protocol (.handler text))) (t.openSession m.session)
  | answered {request : Http.Request} {response : Http.Response}
      (event : TunnelEvent.ofCode? m.event = some .send)
      (parse : Http.Request.parse m.data = .ok request) (answer : handler request = .ok response) :
      Reaction handler t m (.ok (.of m.session .sendResult []))
        (t.set ((t.session m.session).answer response.bytes t.pieceSize))
  | fetched {piece : Bytes} {rest : List Bytes}
      (event : TunnelEvent.ofCode? m.event = some .receive)
      (pending : (t.session m.session).pending = piece :: rest) :
      Reaction handler t m (.ok (.of m.session .receiveResult piece))
        (t.set { t.session m.session with pending := rest })
  | drained (event : TunnelEvent.ofCode? m.event = some .receive)
      (pending : (t.session m.session).pending = []) :
      Reaction handler t m (.error (.noChunksLeft m.session)) t
  | closed (event : TunnelEvent.ofCode? m.event = some .shutdown) :
      Reaction handler t m (.ok (.of m.session .shutdown [])) (t.erase m.session)
  | refused (event : ∀ e ∈ [TunnelEvent.send, .receive, .shutdown],
        TunnelEvent.ofCode? m.event ≠ some e) :
      Reaction handler t m (.error (.protocol (.unknownEvent m.event))) t

namespace Table

theorem send_reaction (handler : Handler) (t : Table) (m : TunnelMessage)
    (h : TunnelEvent.ofCode? m.event = some .send) :
    Reaction handler t m (t.send handler m).1 (t.send handler m).2 := by
  unfold send
  cases hp : Http.Request.parse m.data with
  | error e => exact .unreadable h hp
  | ok request =>
    cases ha : handler request with
    | error text =>
      simp only [ha]
      exact .unanswered h hp ha
    | ok response =>
      -- The session that is answered is the one that was there before it was opened.
      have hset := t.set_openSession ((t.session m.session).answer response.bytes t.pieceSize)
      rw [show ((t.session m.session).answer response.bytes t.pieceSize).id = m.session from
        t.id_session m.session] at hset
      simp only [ha, get?_openSession_self, Option.getD_some, pieceSize_openSession, hset]
      exact .answered h hp ha

theorem receive_reaction (handler : Handler) (t : Table) (m : TunnelMessage)
    (h : TunnelEvent.ofCode? m.event = some .receive) :
    Reaction handler t m (t.receive m.session).1 (t.receive m.session).2 := by
  unfold receive
  cases hs : t.get? m.session with
  | none => exact .drained h (by rw [session_of_get?_none hs])
  | some s =>
    rw [Option.bind_some]
    unfold Session.next?
    cases hp : s.pending with
    | nil => exact .drained h (by rw [session_of_get? hs, hp])
    | cons piece rest =>
      rw [← session_of_get? hs] at hp ⊢
      exact .fetched h hp

/-- A message does one of the things that are listed. -/
theorem handle_reaction (handler : Handler) (t : Table) (m : TunnelMessage) :
    Reaction handler t m (t.handle handler m).1 (t.handle handler m).2 := by
  unfold handle
  cases h : TunnelEvent.ofCode? m.event with
  | none => exact .refused (by simp [h])
  | some e =>
    cases e with
    | send => exact t.send_reaction handler m h
    | receive => exact t.receive_reaction handler m h
    | shutdown => exact .closed h
    | receiveResult => exact .refused (by simp [h])
    | sendResult => exact .refused (by simp [h])

end Table

/-! ## What every reaction keeps -/

variable {handler : Handler} {t u : Table} {m : TunnelMessage} {r : Except AgentError TunnelMessage}

theorem Reaction.pieceSize_eq (h : Reaction handler t m r u) : u.pieceSize = t.pieceSize := by
  cases h with
  | unreadable | unanswered => exact t.pieceSize_openSession m.session
  | answered | fetched | drained | closed | refused => rfl

/-- Sessions of other numbers are left as they are. -/
theorem Reaction.get?_ne (h : Reaction handler t m r u) {other : SessionId}
    (ho : other ≠ m.session) : u.get? other = t.get? other := by
  have hset : ∀ s : Session, s.id = m.session → (t.set s).get? other = t.get? other := by
    intro s hs
    exact t.get?_set_ne (by rw [hs]; exact ho)
  cases h with
  | unreadable | unanswered => exact t.get?_openSession_ne ho
  | answered | fetched => exact hset _ (t.id_session m.session)
  | drained | refused => rfl
  | closed => exact t.get?_erase_ne ho

/-! ## Messages that fail -/

/-- Whether a message is a request that there is no response to. -/
def isVain (handler : Handler) (m : TunnelMessage) : Bool :=
  TunnelEvent.ofCode? m.event = some .send
    && match Http.Request.parse m.data with
      | .error _ => true
      | .ok request => !(handler request).isOk

/-- A message that fails leaves the table as it is, but that a request in vain opens its session. -/
theorem Reaction.of_error {e : AgentError} (h : Reaction handler t m (.error e) u) :
    u = if isVain handler m then t.openSession m.session else t := by
  cases h with
  | unreadable event parse =>
    have hvain : isVain handler m = true := by simp [isVain, event, parse]
    rw [hvain, if_pos rfl]
  | unanswered event parse answer =>
    have hvain : isVain handler m = true := by
      simp [isVain, event, parse, answer, Except.isOk, Except.toBool]
    rw [hvain, if_pos rfl]
  | drained event =>
    have hvain : isVain handler m = false := by simp [isVain, event]
    rw [hvain, if_neg Bool.false_ne_true]
  | refused event =>
    have hvain : isVain handler m = false := by simp [isVain, event .send]
    rw [hvain, if_neg Bool.false_ne_true]

/-! ## A reaction is determined -/

/-- The cases leave no choice. -/
theorem Reaction.unique {r' : Except AgentError TunnelMessage} {u' : Table}
    (h : Reaction handler t m r u) (h' : Reaction handler t m r' u') : r = r' ∧ u = u' := by
  cases h <;> cases h' <;> simp_all

theorem Reaction.handle_eq (h : Reaction handler t m r u) : t.handle handler m = (r, u) := by
  obtain ⟨hr, hu⟩ := (t.handle_reaction handler m).unique h
  rw [← hr, ← hu]

/-- Tables that hold the same session of a message's number, and cut responses alike, react alike to
it and hold the same session afterwards; it need not be open in both. -/
theorem Reaction.transport {v : Table} (h : Reaction handler t m r u)
    (size : t.pieceSize = v.pieceSize) (hs : t.session m.session = v.session m.session) :
    ∃ w, Reaction handler v m r w ∧ u.session m.session = w.session m.session
      ∧ (t.get? m.session = v.get? m.session → u.get? m.session = w.get? m.session) := by
  -- What is put in the place of the number is all that there is afterwards.
  have hset : ∀ s : Session, s.id = m.session →
      (t.set s).get? m.session = (v.set s).get? m.session := by
    rintro s hid
    rw [← hid, t.get?_set_self, v.get?_set_self]
  have hopen : (t.openSession m.session).get? m.session
      = (v.openSession m.session).get? m.session := by
    rw [t.get?_openSession_self, v.get?_openSession_self, hs]
  cases h with
  | unreadable event parse =>
    exact ⟨_, .unreadable event parse, Table.session_congr hopen, fun _ => hopen⟩
  | unanswered event parse answer =>
    exact ⟨_, .unanswered event parse answer, Table.session_congr hopen, fun _ => hopen⟩
  | @answered _ response event parse answer =>
    have hg := hset ((t.session m.session).answer response.bytes t.pieceSize)
      (t.id_session m.session)
    rw [hs, size] at hg ⊢
    exact ⟨_, .answered event parse answer, Table.session_congr hg, fun _ => hg⟩
  | @fetched piece rest event pending =>
    have hg := hset { t.session m.session with pending := rest } (t.id_session m.session)
    rw [hs] at hg pending ⊢
    exact ⟨_, .fetched event pending, Table.session_congr hg, fun _ => hg⟩
  | drained event pending =>
    exact ⟨_, .drained event (by rw [← hs]; exact pending), hs, fun hg => hg⟩
  | closed event =>
    have hg : (t.erase m.session).get? m.session = (v.erase m.session).get? m.session := by
      rw [t.get?_erase_self, v.get?_erase_self]
    exact ⟨_, .closed event, Table.session_congr hg, fun _ => hg⟩
  | refused event => exact ⟨_, .refused event, hs, fun hg => hg⟩

/-! ## Tables that react alike -/

namespace Table

/-- What a message gets depends on the session of its number alone. -/
theorem handle_congr (handler : Handler) (size : t.pieceSize = u.pieceSize)
    (hg : t.get? m.session = u.get? m.session) :
    (t.handle handler m).1 = (u.handle handler m).1
      ∧ (t.handle handler m).2.get? m.session = (u.handle handler m).2.get? m.session := by
  obtain ⟨w, hw, -, hsame⟩ := (t.handle_reaction handler m).transport size (session_congr hg)
  rw [hw.handle_eq]
  exact ⟨rfl, hsame hg⟩

/-- Tables with the same sessions, but that one of them may not have opened a session that was never
answered. -/
structure Alike (t u : Table) : Prop where
  size : t.pieceSize = u.pieceSize
  session : ∀ id, t.session id = u.session id

theorem Alike.refl (t : Table) : Alike t t where
  size := rfl
  session _ := rfl

theorem Alike.clear (h : Alike t u) : Alike t.clear u.clear where
  size := h.size
  session _ := rfl

theorem Alike.openSession (t : Table) (id : SessionId) : Alike (t.openSession id) t where
  size := t.pieceSize_openSession id
  session other := by
    by_cases ho : other = id
    · rw [ho, session_of_get? (t.get?_openSession_self id)]
    · exact session_congr (t.get?_openSession_ne ho)

/-- A session that was never answered cannot be told from one that is not open. -/
theorem Alike.handle (h : Alike t u) (handler : Handler) (m : TunnelMessage) :
    (t.handle handler m).1 = (u.handle handler m).1
      ∧ Alike (t.handle handler m).2 (u.handle handler m).2 := by
  have ht := t.handle_reaction handler m
  obtain ⟨w, hw, hs, -⟩ := ht.transport h.size (h.session m.session)
  rw [hw.handle_eq]
  refine ⟨rfl, ?_, ?_⟩
  · rw [ht.pieceSize_eq, hw.pieceSize_eq, h.size]
  · intro id
    by_cases hid : id = m.session
    · rw [hid]
      exact hs
    · rw [session_congr (ht.get?_ne hid), session_congr (hw.get?_ne hid)]
      exact h.session id

end Table

end PbxAgent.Tunnel

import Mathlib.Data.List.DropRight
import PbxAgent.Proofs.Tunnel.Reaction

/-!
# Delivery of responses

A log keeps what was handed to a table and what was replied. Read from where a session last began, it
accounts for every byte: what was handed out on the session, followed by what is still pending, is
what the acknowledged requests were answered. `Accounts` says so of one session, `Books` of all.
-/

namespace PbxAgent.Tunnel

/-! ## Pieces of a response -/

/-- A piece has at least one byte and no more than the size allows; a size of zero counts as one. -/
def IsPiece (size : Nat) (c : Bytes) : Prop :=
  1 ≤ c.length ∧ c.length ≤ max size 1

theorem isPiece_of_mem_chunks {size : Nat} {b c : Bytes} (h : c ∈ chunks size b) :
    IsPiece size c := by
  fun_induction chunks size b with
  | case1 => simp at h
  | case2 d r ih =>
    rw [List.mem_cons] at h
    rcases h with rfl | h
    · constructor
      · rw [List.length_take, List.length_cons]
        omega
      · exact List.length_take_le _ _
    · exact ih h

theorem flatten_eq_nil_iff {size : Nat} {cs : List Bytes} (h : ∀ c ∈ cs, IsPiece size c) :
    cs.flatten = [] ↔ cs = [] := by
  constructor
  · intro hnil
    cases cs with
    | nil => rfl
    | cons c r =>
      have hlen := (h c List.mem_cons_self).1
      rw [List.flatten_cons, List.append_eq_nil_iff] at hnil
      rw [hnil.1] at hlen
      simp at hlen
  · rintro rfl
    rfl

/-- A table that cuts responses to a size and has nothing but pieces of that size pending. -/
structure Table.Sized (size : Nat) (t : Table) : Prop where
  size_eq : t.pieceSize = size
  pieces : ∀ id, ∀ c ∈ (t.session id).pending, IsPiece size c

theorem Table.Sized.start (size : Nat) : Table.Sized size { pieceSize := size } where
  size_eq := rfl
  pieces := by simp [Table.session, Table.get?]

theorem Table.Sized.clear {size : Nat} {t : Table} (h : t.Sized size) : t.clear.Sized size where
  size_eq := h.size_eq
  pieces := by simp [Table.session, Table.get?, Table.clear]

section
variable {size : Nat} {handler : Handler} {t u : Table} {m r : TunnelMessage}

/-- What a message leaves pending is in pieces, as what was there before. -/
theorem Reaction.sized {r : Except AgentError TunnelMessage} (h : Reaction handler t m r u)
    (sized : t.Sized size) : u.Sized size where
  size_eq := h.pieceSize_eq.trans sized.size_eq
  pieces := by
    intro id
    by_cases hid : id = m.session
    · subst hid
      have hpieces := sized.pieces m.session
      cases h with
      | unreadable | unanswered =>
        rw [(Table.Alike.openSession t m.session).session]
        exact hpieces
      | @answered _ response =>
        have hg := t.get?_set_of_id ((t.session m.session).answer response.bytes t.pieceSize)
          (t.id_session m.session)
        rw [Table.session_of_get? hg, Session.answer]
        intro c hc
        rcases List.mem_append.1 hc with hc | hc
        · exact hpieces c hc
        · rw [sized.size_eq] at hc
          exact isPiece_of_mem_chunks hc
      | @fetched piece rest _ pending =>
        have hg := t.get?_set_of_id { t.session m.session with pending := rest }
          (t.id_session m.session)
        rw [Table.session_of_get? hg]
        intro c hc
        exact hpieces c (by rw [pending]; exact List.mem_cons_of_mem _ hc)
      | drained | refused => exact hpieces
      | closed =>
        rw [Table.session_of_get?_none (t.get?_erase_self m.session)]
        simp
    · rw [Table.session_congr (h.get?_ne hid)]
      exact sized.pieces id

/-- A reply is on the session of its message. -/
theorem Reaction.session_eq (h : Reaction handler t m (.ok r) u) : r.session = m.session := by
  cases h with
  | answered | fetched | closed => rfl

/-- What is handed out is a piece. -/
theorem Reaction.isPiece (h : Reaction handler t m (.ok r) u) (sized : t.Sized size)
    (event : r.event = TunnelEvent.receiveResult.code) : IsPiece size r.data := by
  cases h with
  | answered | closed => simp [TunnelMessage.of, TunnelEvent.code] at event
  | fetched _ pending =>
    exact sized.pieces m.session _ (by rw [pending]; exact List.mem_cons_self)

end

/-! ## Runs and their logs -/

/-- What is handed to a table. -/
inductive Input where
  /-- A message, with the handler as it then is. -/
  | message (handler : Handler) (m : TunnelMessage)
  | clear

/-- What was handed to a table and what came of it. -/
inductive Entry where
  | exchange (handler : Handler) (m : TunnelMessage) (reply : Except AgentError TunnelMessage)
  | cleared

namespace Table

def step (t : Table) : Input → Entry × Table
  | .message handler m => (.exchange handler m (t.handle handler m).1, (t.handle handler m).2)
  | .clear => (.cleared, t.clear)

/-- Hands over inputs one after the other. Gives the log, oldest entry first, and the table then. -/
def run (t : Table) : List Input → List Entry × Table
  | [] => ([], t)
  | i :: is => ((t.step i).1 :: ((t.step i).2.run is).1, ((t.step i).2.run is).2)

end Table

namespace Entry

/-- Whether the session of a number is over with the entry, open or not. -/
def ends (id : SessionId) : Entry → Bool
  | exchange _ m _ => m.session = id && TunnelEvent.ofCode? m.event = some .shutdown
  | cleared => true

/-- Whether the entry is of a request on the session, acknowledged or not. -/
def isRequest (id : SessionId) : Entry → Bool
  | exchange _ m _ => m.session = id && TunnelEvent.ofCode? m.event = some .send
  | cleared => false

/-- The response that the handler gave to a request, if it is one on the session and it was
acknowledged. -/
def answer (id : SessionId) : Entry → Bytes
  | exchange handler m (.ok r) =>
    if m.session = id ∧ TunnelEvent.ofCode? m.event = some .send
        ∧ r.event = TunnelEvent.sendResult.code then
      match Http.Request.parse m.data with
      | .ok request =>
        match handler request with
        | .ok response => response.bytes
        | .error _ => []
      | .error _ => []
    else []
  | _ => []

/-- What the entry hands out on the session. -/
def piece (id : SessionId) : Entry → Bytes
  | exchange _ _ (.ok r) =>
    if r.session = id ∧ r.event = TunnelEvent.receiveResult.code then r.data else []
  | _ => []

end Entry

/-- The part of a log since the session was last shut down or the table cleared. -/
def recent (id : SessionId) (log : List Entry) : List Entry :=
  log.rtakeWhile (! Entry.ends id ·)

/-- What the acknowledged requests of a session were answered, in their order. -/
def answered (id : SessionId) (log : List Entry) : Bytes :=
  (recent id log).flatMap (Entry.answer id)

/-- What has been handed out on a session, in order. -/
def delivered (id : SessionId) (log : List Entry) : Bytes :=
  (recent id log).flatMap (Entry.piece id)

/-- Whether there has been a request on a session. -/
def requested (id : SessionId) (log : List Entry) : Bool :=
  (recent id log).any (Entry.isRequest id)

section
variable {id : SessionId} {log : List Entry} {e : Entry}

theorem recent_concat_of_ends (h : e.ends id = true) : recent id (log ++ [e]) = [] :=
  List.rtakeWhile_concat_neg _ _ _ (by simp [h])

theorem recent_concat (h : e.ends id = false) : recent id (log ++ [e]) = recent id log ++ [e] :=
  List.rtakeWhile_concat_pos _ _ _ (by simp [h])

theorem answered_concat (h : e.ends id = false) :
    answered id (log ++ [e]) = answered id log ++ e.answer id := by
  simp [answered, recent_concat h]

theorem delivered_concat (h : e.ends id = false) :
    delivered id (log ++ [e]) = delivered id log ++ e.piece id := by
  simp [delivered, recent_concat h]

theorem requested_concat (h : e.ends id = false) :
    requested id (log ++ [e]) = (requested id log || e.isRequest id) := by
  simp [requested, recent_concat h]

end

/-! ## The books of one session -/

/-- A log accounts for a session of a table. -/
structure Accounts (id : SessionId) (log : List Entry) (t : Table) : Prop where
  bytes : delivered id log ++ (t.session id).pending.flatten = answered id log
  isOpen : t.isOpen id = requested id log

namespace Accounts

variable {id : SessionId} {log : List Entry} {e : Entry} {t u : Table}

/-- A session that is over owes nothing. -/
theorem restart (h : e.ends id = true) (hu : u.get? id = none) : Accounts id (log ++ [e]) u where
  bytes := by
    rw [delivered, answered, recent_concat_of_ends h, Table.session_of_get?_none hu]
    rfl
  isOpen := by
    rw [requested, recent_concat_of_ends h, Table.isOpen, hu]
    rfl

/-- While a session goes on, what an entry hands out is missing from what is pending, and what it is
answered has come to it. -/
theorem concat (h : Accounts id log t) (he : e.ends id = false)
    (bytes : e.piece id ++ (u.session id).pending.flatten
      = (t.session id).pending.flatten ++ e.answer id)
    (isOpen : u.isOpen id = (t.isOpen id || e.isRequest id)) : Accounts id (log ++ [e]) u where
  bytes := by
    calc delivered id (log ++ [e]) ++ (u.session id).pending.flatten
        = delivered id log ++ (e.piece id ++ (u.session id).pending.flatten) := by
          rw [delivered_concat he, List.append_assoc]
      _ = (delivered id log ++ (t.session id).pending.flatten) ++ e.answer id := by
          rw [bytes, List.append_assoc]
      _ = answered id (log ++ [e]) := by rw [h.bytes, answered_concat he]
  isOpen := by rw [isOpen, h.isOpen, requested_concat he]

/-- An entry that does not concern a session changes nothing in its books. -/
theorem bystander (h : Accounts id log t) (hu : u.get? id = t.get? id) (ends : e.ends id = false)
    (piece : e.piece id = []) (answer : e.answer id = []) (request : e.isRequest id = false) :
    Accounts id (log ++ [e]) u := by
  have hs : u.session id = t.session id := Table.session_congr hu
  refine h.concat ends ?_ ?_
  · rw [piece, answer, hs, List.nil_append, List.append_nil]
  · rw [request, Bool.or_false]
    exact Table.isOpen_congr hu

end Accounts

/-! ## Steps -/

section
variable {id : SessionId} {log : List Entry} {handler : Handler} {t u : Table} {m : TunnelMessage}
  {r : Except AgentError TunnelMessage}

/-- The books of a session take an entry of another one. -/
theorem Accounts.other (h : Accounts id log t) (hr : Reaction handler t m r u)
    (hid : m.session ≠ id) : Accounts id (log ++ [.exchange handler m r]) u := by
  have hpiece : (Entry.exchange handler m r).piece id = [] := by
    cases r with
    | error e => rfl
    | ok reply =>
      have hs : reply.session ≠ id := by rw [hr.session_eq]; exact hid
      simp [Entry.piece, hs]
  have hanswer : (Entry.exchange handler m r).answer id = [] := by
    cases r with
    | error e => rfl
    | ok reply => simp [Entry.answer, hid]
  exact h.bystander (hr.get?_ne (Ne.symm hid)) (by simp [Entry.ends, hid]) hpiece hanswer
    (by simp [Entry.isRequest, hid])

/-- The books of a session take an entry of its own. -/
theorem Accounts.own (h : Accounts m.session log t) (hr : Reaction handler t m r u) :
    Accounts m.session (log ++ [.exchange handler m r]) u := by
  -- A request that fails opens the session and leaves it as it was otherwise.
  have hfail : ∀ e : AgentError, TunnelEvent.ofCode? m.event = some .send →
      Accounts m.session (log ++ [.exchange handler m (.error e)]) (t.openSession m.session) := by
    intro e event
    have hg := t.get?_openSession_self m.session
    have hs := Table.session_of_get? hg
    refine h.concat (by simp [Entry.ends, event]) ?_ ?_
    · rw [hs]
      exact (List.append_nil _).symm
    · simp [Table.isOpen, hg, Entry.isRequest, event]
  cases hr with
  | unreadable event | unanswered event => exact hfail _ event
  | @answered request response event parse answer =>
    -- The response is cut up and goes behind what was pending.
    have hg := t.get?_set_of_id ((t.session m.session).answer response.bytes t.pieceSize)
      (t.id_session m.session)
    have hs := Table.session_of_get? hg
    have hpiece : (Entry.exchange handler m (.ok (.of m.session .sendResult []))).piece m.session
        = [] := by
      simp [Entry.piece, TunnelMessage.of, TunnelEvent.code]
    have hanswer : (Entry.exchange handler m (.ok (.of m.session .sendResult []))).answer m.session
        = response.bytes := by
      simp [Entry.answer, TunnelMessage.of, event, parse, answer]
    refine h.concat (by simp [Entry.ends, event]) ?_ ?_
    · rw [hpiece, hanswer, hs, Session.answer, List.flatten_append, flatten_chunks, List.nil_append]
    · simp [Table.isOpen, hg, Entry.isRequest, event]
  | @fetched piece rest event pending =>
    -- The first piece goes over from what is pending to what has been delivered.
    have hg := t.get?_set_of_id { t.session m.session with pending := rest }
      (t.id_session m.session)
    have hs := Table.session_of_get? hg
    have hopen : t.isOpen m.session = true := by
      -- A session that is not open has nothing pending.
      by_contra hn
      have hnone : t.get? m.session = none := by simpa [Table.isOpen] using hn
      rw [Table.session_of_get?_none hnone] at pending
      exact absurd pending (by simp)
    refine h.concat (by simp [Entry.ends, event]) ?_ ?_
    · rw [hs, pending, List.flatten_cons]
      simp [Entry.piece, Entry.answer, TunnelMessage.of, event]
    · rw [hopen, Bool.true_or, Table.isOpen, hg, Option.isSome_some]
  | drained event pending =>
    exact h.bystander rfl (by simp [Entry.ends, event]) rfl rfl
      (by simp [Entry.isRequest, event])
  | closed event =>
    exact .restart (by simp [Entry.ends, event]) (t.get?_erase_self m.session)
  | refused event =>
    exact h.bystander rfl (by simp [Entry.ends, event .shutdown]) rfl rfl
      (by simp [Entry.isRequest, event .send])

end

/-! ## Runs -/

/-- A log accounts for all of a table. -/
structure Books (size : Nat) (log : List Entry) (t : Table) : Prop where
  sized : t.Sized size
  sessions : ∀ id, Accounts id log t
  pieces : ∀ handler m r, .exchange handler m (.ok r) ∈ log →
    r.event = TunnelEvent.receiveResult.code → IsPiece size r.data

namespace Books

theorem start (size : Nat) : Books size [] { pieceSize := size } where
  sized := .start size
  sessions id := ⟨rfl, rfl⟩
  pieces := by simp

variable {size : Nat} {log : List Entry} {t : Table}

theorem step (h : Books size log t) (i : Input) :
    Books size (log ++ [(t.step i).1]) (t.step i).2 := by
  cases i with
  | clear =>
    refine ⟨h.sized.clear, fun id => .restart rfl rfl, ?_⟩
    intro handler m r hr
    rcases List.mem_append.1 hr with hr | hr
    · exact h.pieces handler m r hr
    · simp [Table.step] at hr
  | message handler m =>
    have hm := t.handle_reaction handler m
    refine ⟨hm.sized h.sized, ?_, ?_⟩
    · intro id
      by_cases hid : m.session = id
      · subst hid
        exact (h.sessions m.session).own hm
      · exact (h.sessions id).other hm hid
    · intro handler' m' r hr event
      rcases List.mem_append.1 hr with hr | hr
      · exact h.pieces handler' m' r hr event
      · rw [Table.step, List.mem_singleton, Entry.exchange.injEq] at hr
        obtain ⟨-, -, hr⟩ := hr
        rw [← hr] at hm
        exact hm.isPiece h.sized event

/-- Books that are kept stay kept over a run. -/
theorem run (h : Books size log t) (is : List Input) :
    Books size (log ++ (t.run is).1) (t.run is).2 := by
  -- The log grows at its end: the rest of the run starts with the entry of the first step in it.
  induction is generalizing log t with
  | nil => simpa [Table.run] using h
  | cons i is ih =>
    have := ih (h.step i)
    rwa [List.append_assoc, List.singleton_append] at this

end Books

/-- What a fetch gets when all has been handed out, and only then. -/
theorem Accounts.fetch {id : SessionId} {log : List Entry} {t : Table} {size : Nat}
    (h : Accounts id log t) (sized : t.Sized size) (handler : Handler) (data : Bytes) :
    if delivered id log = answered id log then
      (t.handle handler (.of id .receive data)).1 = .error (.noChunksLeft id)
    else ∃ piece, (t.handle handler (.of id .receive data)).1 = .ok (.of id .receiveResult piece) := by
  -- Pieces are not empty, so that no bytes are missing only if no piece is.
  have hall : delivered id log = answered id log ↔ (t.session id).pending = [] := by
    rw [← flatten_eq_nil_iff (sized.pieces id), ← h.bytes]
    exact List.self_eq_append_right
  have event : TunnelEvent.ofCode? (TunnelMessage.of id .receive data).event = some .receive := rfl
  cases hp : (t.session id).pending with
  | nil =>
    have hr : Reaction handler t (.of id .receive data) _ _ := .drained event hp
    rw [if_pos (hall.2 hp), hr.handle_eq]
    rfl
  | cons piece rest =>
    have hr : Reaction handler t (.of id .receive data) _ _ := .fetched event hp
    rw [if_neg (by rw [hall, hp]; exact List.cons_ne_nil _ _), hr.handle_eq]
    exact ⟨piece, rfl⟩

/-- **Delivery is exact.** From a table without sessions, with any size of pieces, through any messages
under any handlers and any clearings: on every session, the bytes handed out since it last began,
followed by those pending, are the responses to its acknowledged requests; what is handed out comes
in pieces that are not empty and not too long; a fetch fails for want of bytes when all have been
handed out, and gives a piece otherwise; and the session is open if there has been a request on it. -/
theorem delivery_exact (size : Nat) (inputs : List Input) (id : SessionId) :
    let log := (Table.run { pieceSize := size } inputs).1
    let t := (Table.run { pieceSize := size } inputs).2
    delivered id log ++ ((t.get? id).elim [] Session.pending).flatten = answered id log
      ∧ (∀ handler m r, .exchange handler m (.ok r) ∈ log →
          r.event = TunnelEvent.receiveResult.code →
          1 ≤ r.data.length ∧ r.data.length ≤ max size 1)
      ∧ (∀ handler data,
          if delivered id log = answered id log then
            (t.handle handler (.of id .receive data)).1 = .error (.noChunksLeft id)
          else ∃ piece,
            (t.handle handler (.of id .receive data)).1 = .ok (.of id .receiveResult piece))
      ∧ t.isOpen id = requested id log := by
  intro log t
  have h : Books size log t := (Books.start size).run inputs
  have hpending : (t.get? id).elim [] Session.pending = (t.session id).pending := by
    unfold Table.session
    cases t.get? id <;> rfl
  rw [hpending]
  exact ⟨(h.sessions id).bytes, h.pieces, (h.sessions id).fetch h.sized, (h.sessions id).isOpen⟩

end PbxAgent.Tunnel

import Mathlib.Data.List.Forall2
import PbxAgent.Proofs.Uplink.Books
import PbxAgent.Status

/-!
# The log of events

Every attempt at a connection adds one group to the log: that it failed, or that the connection came
and went, and in between at most once that the backend authenticated itself (`log_wellFormed`). An
arrival adds an event when it raises the flag, which stays up until the attempt ends
(`Reception.noted`).
-/

namespace PbxAgent

/-! ## The latest events -/

/-- The member of an object with a name. -/
def Json.Value.member? (v : Json.Value) (name : String) : Option Json.Value :=
  match v with
  | .object members => (members.find? (·.1 = name)).map (·.2)
  | _ => none

/-- Whether a text gives an age of some seconds: in whole hours if there is one, else in whole minutes
if there is one. -/
structure Status.IsAge (age : Nat) (text : String) : Prop where
  seconds : age < 60 → text = toString age ++ "s ago"
  minutes : 60 ≤ age → age < 3600 → text = toString (age / 60) ++ "m ago"
  hours : 3600 ≤ age → text = toString (age / 3600) ++ "h ago"

/-- What the page of health says of an event: its detail, the name of its kind, and its age in the whole
seconds that have passed. -/
inductive Event.Listed (now : Nat) (e : Event) : Json.Value → Prop where
  | entry {name age : String}
      (kind : (e.kind, name) ∈ [(EventKind.connected, "connected"), (.disconnected, "disconnected"),
        (.connectFailed, "connect_failed"), (.authenticated, "authenticated")])
      (aged : Status.IsAge ((now - e.time) / 1000000000) age) :
      Listed now e (.object [("detail", .string e.detail), ("event", .string name),
        ("time", .string age)])

/-- Whether statistics tell of some events: the last fifty are in the log, oldest first, and the last
ten are what the page of health lists, newest first. -/
structure Stats.Shows (s : Stats) (pushed : List Event) : Prop where
  log : s.events = pushed.drop (pushed.length - 50)
  page : ∀ (status : Status) (r : Http.Request), status.stats = s →
    r.method = Text.Utf8.encode "GET" → r.uri.path = Text.Utf8.encode "/api/health" →
    ∃ (page : Json.Value) (entries : List Json.Value),
      (status.respond r).status = 200 ∧ (status.respond r).body = page.bytes
        ∧ (page.member? "connection").bind (·.member? "recent_events") = some (.list entries)
        ∧ List.Forall₂ (Event.Listed status.now) (pushed.reverse.take 10) entries

theorem Status.isAge_agoText (seconds : Nat) : Status.IsAge seconds (Status.agoText seconds) := by
  refine ⟨?_, ?_, ?_⟩
  · intro h
    rw [agoText, if_pos h]
    rfl
  · intro h h'
    rw [agoText, if_neg (by omega), if_pos h']
    rfl
  · intro h
    rw [agoText, if_neg (by omega), if_neg (by omega)]
    rfl

theorem Status.listed_eventJson (now : Nat) (e : Event) : e.Listed now (Status.eventJson now e) := by
  refine .entry ?_ (isAge_agoText _)
  cases e.kind <;> decide

theorem EventLog.newest_lastOf (pushed : List Event) :
    (lastOf capacity pushed).reverse.take Status.eventsShown = pushed.reverse.take 10 := by
  rw [lastOf, List.reverse_drop, List.take_take, List.take_eq_take_iff, List.length_reverse]
  simp only [capacity, Status.eventsShown]
  omega

/-- Statistics tell of the events that have been pushed into their log. -/
theorem Stats.shows_of_events {s : Stats} {pushed : List Event}
    (h : s.events = pushed.foldl EventLog.push []) : s.Shows pushed := by
  rw [EventLog.pushAll_eq] at h
  refine ⟨h, ?_⟩
  rintro status r rfl hmethod hpath
  have hpage : status.page? r.uri.path = some status.health := by
    rw [Status.page?, if_pos hpath]
  have hget : r.method = Status.getMethod := by
    rw [hmethod]
    decide
  refine ⟨status.health, (pushed.reverse.take 10).map (Status.eventJson status.now), ?_, ?_, ?_, ?_⟩
  · rw [Status.respond, hpage]
    dsimp only
    rw [if_pos hget]
  · rw [Status.respond, hpage]
    dsimp only
    rw [if_pos hget]
  · rw [← EventLog.newest_lastOf, ← h]
    rfl
  · rw [List.forall₂_map_right_iff, List.forall₂_same]
    intro e _
    exact Status.listed_eventJson status.now e

/-! ## Groups -/

/-- The kinds of events that an attempt may lead to. -/
def EventKind.IsGroup (kinds : List EventKind) : Prop :=
  kinds = [.connectFailed] ∨ kinds = [.connected, .disconnected]
    ∨ kinds = [.connected, .authenticated, .disconnected]

/-- What the log says of how a connection ended. -/
def Ending.text : Ending → String
  | .closed => "closed by backend"
  | .exhausted => "end of stream"
  | .failed e => e.message

namespace Uplink

/-- The events of the connection there is: that it came up, and that the backend is taken for
authenticated if it is. -/
def begun (url : String) (u : Uplink) : List Event :=
  ⟨.connected, url, u.now⟩
    :: if u.stats.authenticated then [⟨.authenticated, "", u.now⟩] else []

/-- The events of an attempt. -/
def chapter (handler : Stats → Handler) (url : String) (u : Uplink) : Attempt → List Event
  | .failed e => [⟨.connectFailed, (AgentError.transport e).message, u.now⟩]
  | .accepted (some e) _ =>
    (u.connect url).2.begun url ++ [⟨.disconnected, (AgentError.transport e).message, u.now⟩]
  | .accepted none arrivals =>
    let (_, ending, v) := serve handler (u.connect url).2.presented arrivals
    v.begun url ++ [⟨.disconnected, ending.text, u.now⟩]

/-- The events of attempts one after the other, by attempts. -/
def chapters (handler : Stats → Handler) (url : String) : Uplink → List Attempt → List (List Event)
  | _, [] => []
  | u, a :: attempts =>
    u.chapter handler url a :: chapters handler url (u.attempt handler url a).2 attempts

variable {handler : Stats → Handler} {url : String} {u v w : Uplink} {a : Arrival}

theorem isGroup_begun (url : String) (u : Uplink) (detail : String) (time : Nat) :
    EventKind.IsGroup (List.map Event.kind (u.begun url ++ [⟨.disconnected, detail, time⟩])) := by
  unfold begun
  split
  · exact .inr (.inr rfl)
  · exact .inr (.inl rfl)

theorem isGroup_chapter (handler : Stats → Handler) (url : String) (u : Uplink) (a : Attempt) :
    EventKind.IsGroup ((u.chapter handler url a).map Event.kind) := by
  cases a with
  | failed e => exact .inl rfl
  | accepted sendError arrivals =>
    cases sendError with
    | some e => exact isGroup_begun ..
    | none => exact isGroup_begun ..

/-! ## What an arrival adds -/

/-- The event of a flag that is up now and was not before. -/
def raised (u v : Uplink) : List Event :=
  if !u.stats.authenticated && v.stats.authenticated then [⟨.authenticated, "", u.now⟩] else []

/-- Whether one uplink comes after another on a connection: the flag has not been lowered, and what the
log has more is that it has been raised, if it has. -/
structure Noted (u v : Uplink) : Prop where
  now : v.now = u.now
  connected : v.stats.connected = u.stats.connected
  events : v.stats.events = (u.raised v).foldl EventLog.push u.stats.events
  kept : u.stats.authenticated = true → v.stats.authenticated = true

theorem Noted.of_eq (now : v.now = u.now) (connected : v.stats.connected = u.stats.connected)
    (events : v.stats.events = u.stats.events)
    (authenticated : v.stats.authenticated = u.stats.authenticated) : Noted u v := by
  refine ⟨now, connected, ?_, fun h => authenticated.trans h⟩
  rw [raised, authenticated, Bool.not_and_self, events]
  rfl

theorem Noted.trans (h : Noted u v) (h' : Noted v w) : Noted u w := by
  refine ⟨h'.now.trans h.now, h'.connected.trans h.connected, ?_, fun hu => h'.kept (h.kept hu)⟩
  rw [h'.events, h.events, raised, raised, raised, h.now]
  cases hu : u.stats.authenticated with
  | true =>
    rw [h.kept hu]
    rfl
  | false =>
    cases hv : v.stats.authenticated with
    | true =>
      rw [h'.kept hv]
      rfl
    | false => rfl

theorem noted_settle (u : Uplink) : Noted u u.settle := by
  unfold settle
  split
  next h =>
    obtain ⟨-, hflag⟩ := Bool.and_eq_true_iff.1 h
    refine ⟨rfl, rfl, ?_, fun _ => rfl⟩
    rw [raised, hflag]
    rfl
  next => exact .of_eq rfl rfl rfl rfl

/-- An arrival adds that the backend is authenticated when it is so first, and nothing else. -/
theorem Reception.noted {r : Except Ending (Option Bytes)} (h : Reception handler u a r v) :
    Noted u v := by
  cases h with
  | ended | passed | unsent => exact .of_eq rfl rfl rfl rfl
  | @replied data =>
    have counted : Noted u (u.dealt handler data).countSent := .of_eq rfl rfl rfl rfl
    exact counted.trans (noted_settle _)
  | @accepted data =>
    have dealt : Noted u (u.dealt handler data) := .of_eq rfl rfl rfl rfl
    exact dealt.trans (noted_settle _)
  | @dropped data =>
    have counted : Noted u (u.dealt handler data).countDropped := .of_eq rfl rfl rfl rfl
    exact counted.trans (noted_settle _)

theorem Service.noted {arrivals : List Arrival} {inputs : List Site.Input} {sent : List Bytes}
    {ending : Ending} (h : Service handler u arrivals inputs sent ending v) : Noted u v := by
  induction h with
  | drained u => exact .of_eq rfl rfl rfl rfl
  | ended _ reception => exact reception.noted
  | next reception _ ih => exact reception.noted.trans ih

/-- Whether an arrival is a frame that is dealt with to the end, the backend authenticated then. -/
def Authenticates (handler : Stats → Handler) (u : Uplink) (a : Arrival) : Prop :=
  a.data?.isSome = true ∧ (∃ reply, (u.receive handler a).1 = .ok reply)
    ∧ (u.receive handler a).2.agent.isAuthenticated = true

/-- An arrival that does not end the connection leaves the flag up if it was, or if it is a frame that
authenticates the backend. -/
theorem receive_authenticated {reply : Option Bytes} (live : u.Live)
    (h : u.receive handler a = (.ok reply, v)) :
    v.stats.authenticated = true ↔ u.stats.authenticated = true ∨ u.Authenticates handler a := by
  have reception := receive_reception handler u a
  rw [h] at reception
  have authenticates : u.Authenticates handler a
      ↔ a.data?.isSome = true ∧ v.agent.isAuthenticated = true := by
    rw [Authenticates, h]
    exact and_congr_right fun _ => and_iff_right ⟨reply, rfl⟩
  rw [authenticates, ← (reception.live live).authenticated]
  constructor
  · intro hv
    cases hdata : a.data? with
    | none =>
      cases reception with
      | passed => exact .inl hv
      | replied _ frame | accepted _ frame | dropped _ frame =>
        rw [hdata] at frame
        cases frame
    | some data => exact .inr ⟨rfl, hv⟩
  · rintro (hu | ⟨-, hv⟩)
    · exact reception.noted.kept hu
    · exact hv

/-- Whether some arrivals have one among them that is a frame and authenticates the backend, with none
before it that ends the connection. -/
def AuthenticatesAmong (handler : Stats → Handler) (u : Uplink) (arrivals : List Arrival) : Prop :=
  ∃ before a after, arrivals = before ++ a :: after ∧ (serve handler u before).2.1 = .exhausted
    ∧ (serve handler u before).2.2.Authenticates handler a

theorem authenticatesAmong_cons_of_error {ending : Ending} {arrivals : List Arrival}
    (h : u.receive handler a = (.error ending, v)) :
    ¬ u.AuthenticatesAmong handler (a :: arrivals) := by
  rintro ⟨before, b, after, hsplit, hup, hb⟩
  cases before with
  | nil =>
    cases hsplit
    obtain ⟨reply, hok⟩ := hb.2.1
    rw [serve, h] at hok
    cases hok
  | cons c before =>
    cases hsplit
    have reception := receive_reception handler u a
    rw [h] at reception
    rw [(serve_cons_of_error before h).1] at hup
    exact reception.ne_exhausted hup

theorem authenticatesAmong_cons_of_ok {reply : Option Bytes} {arrivals : List Arrival}
    (h : u.receive handler a = (.ok reply, v)) :
    u.AuthenticatesAmong handler (a :: arrivals)
      ↔ u.Authenticates handler a ∨ v.AuthenticatesAmong handler arrivals := by
  have hserve (before : List Arrival) := (serve_cons_of_ok before h).1
  constructor
  · rintro ⟨before, b, after, hsplit, hup, hb⟩
    cases before with
    | nil =>
      cases hsplit
      exact .inl hb
    | cons c before =>
      cases hsplit
      rw [hserve] at hup hb
      exact .inr ⟨before, b, after, rfl, hup, hb⟩
  · rintro (ha | ⟨before, b, after, rfl, hup, hb⟩)
    · exact ⟨[], a, arrivals, rfl, rfl, ha⟩
    · refine ⟨a :: before, b, after, rfl, ?_, ?_⟩
      · rw [hserve]
        exact hup
      · rw [hserve]
        exact hb

/-- The flag goes up with the first frame that authenticates the backend, if there is one. -/
theorem serve_authenticated {arrivals : List Arrival} (live : u.Live) :
    (serve handler u arrivals).2.2.stats.authenticated = true
      ↔ u.stats.authenticated = true ∨ u.AuthenticatesAmong handler arrivals := by
  induction arrivals generalizing u with
  | nil =>
    have none : ¬ u.AuthenticatesAmong handler [] := by
      rintro ⟨before, a, after, hsplit, -⟩
      cases before <;> cases hsplit
    rw [or_iff_left none]
    rfl
  | cons a arrivals ih =>
    rcases h : u.receive handler a with ⟨result, v⟩
    have reception := receive_reception handler u a
    rw [h] at reception
    cases result with
    | error ending =>
      have hflag : v.stats.authenticated = u.stats.authenticated := by cases reception <;> rfl
      rw [(serve_cons_of_error arrivals h).1, or_iff_left (authenticatesAmong_cons_of_error h), hflag]
    | ok reply =>
      -- the flag is the agent's only on a live connection, so the uplink after `a` has to be live too
      rw [(serve_cons_of_ok arrivals h).1, ih (reception.live live), receive_authenticated live h,
        authenticatesAmong_cons_of_ok h, or_assoc]

/-! ## Attempts -/

theorem begun_connect (down : u.Down) (url : String) :
    (u.connect url).2.begun url = [⟨.connected, url, u.now⟩] := by
  have hflag : (u.connect url).2.stats.authenticated = false := down.authenticated
  rw [begun, hflag]
  rfl

/-- A connection that is up has added that it came, and whether the backend is authenticated. -/
theorem events_begun (down : u.Down) (noted : Noted (u.connect url).2.presented v) :
    v.stats.events = (v.begun url).foldl EventLog.push u.stats.events := by
  have hflag : (u.connect url).2.presented.stats.authenticated = false := down.authenticated
  have hnow : v.now = (u.connect url).2.presented.now := noted.now
  rw [noted.events, raised, begun, hflag, hnow, List.foldl_cons, Bool.not_false, Bool.true_and]
  rfl

/-- A connection that came up is noted to have ended, however it did. -/
theorem events_finish (connected : u.stats.connected = true) (ending : Ending) :
    (u.finish ending).stats.events
      = u.stats.events.push ⟨.disconnected, ending.text, u.now⟩ := by
  cases ending with
  | closed | exhausted => rfl
  | failed e =>
    rw [finish, connected]
    rfl

/-- An attempt adds its events to the log, whatever is in it. -/
theorem events_attempt (down : u.Down) (handler : Stats → Handler) (url : String) (a : Attempt) :
    (u.attempt handler url a).2.stats.events
      = (u.chapter handler url a).foldl EventLog.push u.stats.events := by
  cases a with
  | failed e =>
    show (u.finish _).stats.events = _
    rw [finish, down.connected]
    rfl
  | accepted sendError arrivals =>
    cases sendError with
    | some e =>
      show ((u.connect url).2.finish _).stats.events = _
      rw [events_finish rfl, chapter, List.foldl_append, begun_connect down]
      rfl
    | none =>
      rw [attempt_accepted]
      dsimp only
      have noted := (serve_service handler (u.connect url).2.presented arrivals).noted
      rw [events_finish noted.connected, events_begun down noted, chapter, List.foldl_append, noted.now]
      rfl

/-! ## Runs -/

theorem length_chapters (handler : Stats → Handler) (url : String) (u : Uplink)
    (attempts : List Attempt) : (u.chapters handler url attempts).length = attempts.length := by
  induction attempts generalizing u with
  | nil => rfl
  | cons a attempts ih => rw [chapters, List.length_cons, List.length_cons, ih]

theorem isGroup_of_mem_chapters {attempts : List Attempt} :
    ∀ group ∈ u.chapters handler url attempts, EventKind.IsGroup (group.map Event.kind) := by
  induction attempts generalizing u with
  | nil => exact fun _ h => absurd h List.not_mem_nil
  | cons a attempts ih => exact List.forall_mem_cons.2 ⟨isGroup_chapter .., ih⟩

theorem chapters_concat (handler : Stats → Handler) (url : String) (u : Uplink)
    (attempts : List Attempt) (a : Attempt) :
    u.chapters handler url (attempts ++ [a]) = u.chapters handler url attempts
      ++ [(u.run handler url attempts).2.chapter handler url a] := by
  induction attempts generalizing u with
  | nil => rfl
  | cons b attempts ih =>
    rw [List.cons_append, chapters, ih]
    rfl

/-- Attempts add their events to the log one group after the other, whatever is in it. -/
theorem events_run (down : u.Down) (handler : Stats → Handler) (url : String)
    (attempts : List Attempt) :
    (u.run handler url attempts).2.stats.events
      = (u.chapters handler url attempts).flatten.foldl EventLog.push u.stats.events := by
  induction attempts generalizing u with
  | nil => rfl
  | cons a attempts ih =>
    rw [chapters, List.flatten_cons, List.foldl_append, ← events_attempt down]
    exact ih (down_attempt handler url u a)

/-- What is added to the log is shown behind what there was. -/
theorem shows_append {told more : List Event} (log : u.stats.events = told.foldl EventLog.push [])
    (added : v.stats.events = more.foldl EventLog.push u.stats.events) :
    v.stats.Shows (told ++ more) := by
  refine Stats.shows_of_events ?_
  rw [added, log, List.foldl_append]

theorem authenticated_mem_begun (url : String) (u : Uplink) (detail : String) (time : Nat) :
    EventKind.authenticated ∈ List.map Event.kind (u.begun url ++ [⟨.disconnected, detail, time⟩])
      ↔ u.stats.authenticated = true := by
  unfold begun
  cases u.stats.authenticated with
  | true => simp
  | false => simp

/-- A group says that the backend is authenticated if a frame of the attempt has led to that. -/
theorem authenticated_mem_chapter (down : u.Down) (a : Attempt) :
    EventKind.authenticated ∈ (u.chapter handler url a).map Event.kind
      ↔ ∃ arrivals, a = .accepted none arrivals
          ∧ (u.connect url).2.presented.AuthenticatesAmong handler arrivals := by
  cases a with
  | failed e =>
    refine iff_of_false (by simp [chapter]) ?_
    rintro ⟨arrivals, ha, -⟩
    cases ha
  | accepted sendError arrivals =>
    cases sendError with
    | some e =>
      rw [chapter, authenticated_mem_begun]
      refine iff_of_false ?_ ?_
      · rw [Bool.not_eq_true]
        exact down.authenticated
      · rintro ⟨others, ha, -⟩
        cases ha
    | none =>
      have live := live_presented (live_connect down url)
      have hflag : (u.connect url).2.presented.stats.authenticated = false := down.authenticated
      rw [chapter, authenticated_mem_begun, serve_authenticated live, hflag, or_iff_right nofun]
      constructor
      · intro h
        exact ⟨arrivals, rfl, h⟩
      · rintro ⟨others, ha, h⟩
        cases ha
        exact h

/-- **The log is well formed.** From an empty log on, every attempt adds one group of events: that it
failed, or that the connection came and went, and in between that the backend authenticated itself if
there was a frame on it that was dealt with to the end and had it authenticated. At any moment, between
attempts, when a connection has come up, after anything that has come in on it, and when the handler is
asked on behalf of the next frame, the log holds the last fifty of the events so far and the page of
health lists the last ten. -/
theorem log_wellFormed (handler : Stats → Handler) (url : String) (agent : Agent) (host : Host)
    (now : Nat) (attempts : List Attempt) :
    let u : Uplink := { agent := agent, host := host, now := now }
    let v := (u.run handler url attempts).2
    let told := u.chapters handler url attempts
    let start := (v.connect url).2.presented
    told.length = attempts.length
      ∧ (∀ group ∈ told, EventKind.IsGroup (group.map Event.kind))
      ∧ v.stats.Shows told.flatten
      ∧ (v.connect url).2.stats.Shows (told.flatten ++ [⟨.connected, url, v.now⟩])
      ∧ (∀ arrivals,
          let ending := (serve handler start arrivals).2.1
          let w := (serve handler start arrivals).2.2
          w.stats.Shows (told.flatten ++ w.begun url)
            ∧ w.countReceived.stats.Shows (told.flatten ++ w.begun url)
            ∧ v.chapter handler url (.accepted none arrivals)
                = w.begun url ++ [⟨.disconnected, ending.text, v.now⟩])
      ∧ ∀ next,
          u.chapters handler url (attempts ++ [next]) = told ++ [v.chapter handler url next]
            ∧ (EventKind.authenticated ∈ (v.chapter handler url next).map Event.kind
                ↔ ∃ arrivals, next = .accepted none arrivals
                  ∧ start.AuthenticatesAmong handler arrivals) := by
  intro u v told start
  have down : u.Down := ⟨rfl, rfl, rfl⟩
  have vdown : v.Down := down_run down handler url attempts
  have log : v.stats.events = told.flatten.foldl EventLog.push [] :=
    events_run down handler url attempts
  refine ⟨length_chapters .., isGroup_of_mem_chapters, Stats.shows_of_events log, ?_, ?_, ?_⟩
  · exact shows_append log rfl
  · intro arrivals ending w
    have begun : w.stats.events = (w.begun url).foldl EventLog.push v.stats.events :=
      events_begun vdown (serve_service handler start arrivals).noted
    exact ⟨shows_append log begun, shows_append log begun, rfl⟩
  · intro next
    exact ⟨chapters_concat handler url u attempts next, authenticated_mem_chapter vdown next⟩

end Uplink

end PbxAgent

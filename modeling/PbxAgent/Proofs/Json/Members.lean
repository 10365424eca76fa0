import Mathlib.Data.List.Forall2
import Mathlib.Data.List.Perm.Basic
import Mathlib.Data.List.ReduceOption
import PbxAgent.Proofs.Json.Extent

/-!
# Members of objects

How a record is read from an object, whatever its members are and however their keys are escaped. Where
it is read, no member is there twice (`objectMembers_extent`); where each required member is there, none
is there twice, and each has the value that its key asks for, it is read, among any others and in any
order (`record_taken`).
-/

namespace PbxAgent.Json

open Schema (Decoder Draft)

variable {α σ : Type} {r r' b more : Bytes}

/-! ## Keys -/

/-- Whether a member's key stands for a name, whatever follows. -/
def Entry.Named (e : Entry) (name : String) : Prop :=
  ∀ r, stringText (e.key ++ quote :: r) = .ok (name, r)

theorem Entry.named_plain (name : String) (value : Bytes) : (plain name value).Named name :=
  stringText_escaped name

theorem Entry.Named.eq {e : Entry} {name name' : String} (h : e.Named name) (h' : e.Named name') :
    name = name' := by
  have heq := (h []).symm.trans (h' [])
  cases heq
  rfl

theorem Entry.named_of_stringText {e : Entry} (key : StringBody e.key) {name : String}
    (h : stringText (e.key ++ quote :: r) = .ok (name, r')) : r' = r ∧ e.Named name := by
  obtain ⟨⟨content, rest⟩, hbytes, h⟩ := bind_eq_ok.1 h
  have hskip := skipString_of_stringBytes hbytes
  rw [skipString_body key] at hskip
  obtain rfl := Except.ok.inj hskip
  obtain ⟨s, -, hkey, hread⟩ := exists_body_of_stringBytes hbytes
  obtain rfl := List.append_cancel_right hkey
  dsimp only at h
  split at h
  next s hdecode =>
    cases h
    refine ⟨rfl, fun r => ?_⟩
    rw [stringText, hread, ok_bind]
    simp only [hdecode]
  next => cases h

/-- What stands behind the key. -/
def Entry.tail (e : Entry) (more : Bytes) : Bytes :=
  e.spacing.behind.1 ++ 0x3A :: (e.spacing.ahead.1 ++ (e.value ++ more))

theorem Entry.colon_tail (e : Entry) (more : Bytes) :
    colon (e.tail more) = .ok (e.spacing.ahead.1 ++ (e.value ++ more)) :=
  colon_behind _ _

theorem Entry.text_append (e : Entry) (more : Bytes) :
    e.part.text ++ more = quote :: (e.key ++ quote :: e.tail more) := by
  simp [Entry.part, Entry.tail]

/-! ## One member -/

theorem moreMembers_part (first : Bool) (e : Entry) (more : Bytes) :
    moreMembers first
        (e.part.gap.1 ++ (separator first ++ (e.part.lead.1 ++ (e.part.text ++ more))))
      = .ok (true, quote :: (e.key ++ quote :: e.tail more)) := by
  have hquote : isBlank quote = false := by decide
  rw [e.text_append]
  cases first with
  | true =>
    show moreMembers true (e.part.gap.1 ++ (e.part.lead.1 ++ quote :: _)) = _
    simp only [moreMembers, skipBlank_blanks, skipBlank_of_not_isBlank hquote]
    rfl
  | false =>
    show moreMembers false (e.part.gap.1 ++ 0x2C :: (e.part.lead.1 ++ quote :: _)) = _
    simp only [moreMembers, skipBlank_blanks_cons (show isBlank 0x2C = false by decide),
      skipBlank_blanks_cons hquote]
    rfl

theorem moreMembers_end (first : Bool) (gap : Blanks) (r : Bytes) :
    moreMembers first (gap.1 ++ 0x7D :: r) = .ok (false, 0x7D :: r) := by
  simp only [moreMembers, skipBlank_blanks_cons (show isBlank 0x7D = false by decide)]
  rfl

section
variable {members : List (Member σ)} {e : Entry} {name : String} {fuel : Nat} {first : Bool}
  {d d' : Draft σ}

/-- The value of a member that is not known is gone through. -/
theorem objectMembers_unknown (named : e.Named name)
    (unknown : members.find? (·.answersTo name) = none) (value : IsValue e.value)
    (hmore : Settled more) :
    objectMembers members (fuel + 1) first d
        (e.part.gap.1 ++ (separator first ++ (e.part.lead.1 ++ (e.part.text ++ more))))
      = objectMembers members fuel false d more := by
  rw [objectMembers, moreMembers_part]
  simp only [stopAt, ok_bind, if_true, List.drop_one, List.tail_cons, named _, unknown,
    e.colon_tail, skipValue_of_isValue value _ hmore]

variable {m : Member σ}

/-- The value of a member that is known is read, if the member is not there yet. -/
theorem objectMembers_known (named : e.Named name)
    (known : members.find? (·.answersTo name) = some m) (new : m.name ∉ d.seen) :
    objectMembers members (fuel + 1) first d
        (e.part.gap.1 ++ (separator first ++ (e.part.lead.1 ++ (e.part.text ++ more))))
      = stopAt (m.read (e.spacing.ahead.1 ++ (e.value ++ more)))
        >>= fun found => objectMembers members fuel false (d.put m.name found.1) found.2 := by
  have hseen : ¬ d.seen.contains m.name = true := by simpa using new
  rw [objectMembers, moreMembers_part]
  simp only [stopAt, ok_bind, if_true, List.drop_one, List.tail_cons, named _, known, if_neg hseen,
    e.colon_tail]

/-- A member that is there already is refused, whatever its value. -/
theorem objectMembers_twice (named : e.Named name)
    (known : members.find? (·.answersTo name) = some m) (seen : m.name ∈ d.seen) :
    objectMembers members (fuel + 1) first d
        (e.part.gap.1 ++ (separator first ++ (e.part.lead.1 ++ (e.part.text ++ more))))
      = .error (.mismatch (.duplicate m.name) (e.tail more)) := by
  have hseen : d.seen.contains m.name = true := by simpa using seen
  rw [objectMembers, moreMembers_part]
  simp only [stopAt, ok_bind, if_true, List.drop_one, List.tail_cons, named _, known, if_pos hseen]

/-- The members behind one are read if it is not known, or known and not there yet. -/
theorem of_objectMembers_part (hmembers : ∀ m ∈ members, Orderly m.read) (key : StringBody e.key)
    (value : IsValue e.value) (hmore : Settled more)
    (h : objectMembers members (fuel + 1) first d
        (e.part.gap.1 ++ (separator first ++ (e.part.lead.1 ++ (e.part.text ++ more))))
      = .ok (d', b)) :
    ∃ name, e.Named name
      ∧ ((members.find? (·.answersTo name) = none
          ∧ objectMembers members fuel false d more = .ok (d', b))
        ∨ ∃ m update, members.find? (·.answersTo name) = some m ∧ m.name ∉ d.seen
          ∧ objectMembers members fuel false (d.put m.name update) more = .ok (d', b)) := by
  obtain ⟨name, named⟩ : ∃ name, e.Named name := by
    rw [objectMembers, moreMembers_part] at h
    simp only [stopAt, ok_bind, if_true, List.drop_one, List.tail_cons] at h
    obtain ⟨⟨name, rest⟩, hname, -⟩ := bind_eq_ok.1 h
    exact ⟨name, (Entry.named_of_stringText key (stopAt_eq_ok.1 hname)).2⟩
  refine ⟨name, named, ?_⟩
  cases known : members.find? (·.answersTo name) with
  | none =>
    rw [objectMembers_unknown named known value hmore] at h
    exact .inl ⟨rfl, h⟩
  | some m =>
    by_cases seen : m.name ∈ d.seen
    · rw [objectMembers_twice named known seen] at h
      cases h
    · rw [objectMembers_known named known seen] at h
      obtain ⟨⟨update, rest⟩, hread, hgo⟩ := bind_eq_ok.1 h
      have horderly := hmembers m (List.mem_of_find?_eq_some known)
      obtain rfl := horderly.extent_blanks _ value hmore (stopAt_eq_ok.1 hread)
      exact .inr ⟨m, update, rfl, seen, hgo⟩

/-! ## No member twice -/

/-- Whether a member is one that a record knows under a name. -/
def Entry.Fills (members : List (Member σ)) (e : Entry) (field : String) : Prop :=
  ∃ name m, e.Named name ∧ members.find? (·.answersTo name) = some m ∧ m.name = field

theorem Entry.Named.not_fills (named : e.Named name)
    (unknown : members.find? (·.answersTo name) = none) (field : String) :
    ¬ e.Fills members field := by
  rintro ⟨name', m, named', known, -⟩
  rw [← named.eq named', unknown] at known
  cases known

theorem Entry.Named.eq_of_fills (named : e.Named name)
    (known : members.find? (·.answersTo name) = some m) {field : String}
    (h : e.Fills members field) : field = m.name := by
  obtain ⟨name', m', named', known', rfl⟩ := h
  rw [← named.eq named', known] at known'
  cases known'
  rfl

/-- Members that are read are read up to the closing brace; those that fill a field fill each its own,
and none that was there before. -/
theorem objectMembers_extent (hmembers : ∀ m ∈ members, Orderly m.read) {es : List Entry}
    (keys : ∀ e ∈ es, StringBody e.key) (values : ∀ e ∈ es, IsValue e.value) {gap : Blanks}
    (h : objectMembers members fuel first d
      (joined first (es.map Entry.part) ++ (gap.1 ++ 0x7D :: r)) = .ok (d', b)) :
    b = 0x7D :: r ∧ (∀ e ∈ es, ∀ field, e.Fills members field → field ∉ d.seen)
      ∧ es.Pairwise fun e f => ∀ field, e.Fills members field → ¬ f.Fills members field := by
  induction es generalizing fuel first d with
  | nil =>
    cases fuel with
    | zero => cases h
    | succ fuel =>
      rw [List.map_nil, joined, List.nil_append, objectMembers, moreMembers_end] at h
      cases h
      exact ⟨rfl, fun _ he => absurd he List.not_mem_nil, .nil⟩
  | cons e es ih =>
    obtain ⟨key, keys⟩ := List.forall_mem_cons.1 keys
    obtain ⟨value, values⟩ := List.forall_mem_cons.1 values
    cases fuel with
    | zero => cases h
    | succ fuel =>
      simp only [List.map_cons, joined, List.append_assoc] at h
      obtain ⟨name, named, hrest⟩ := of_objectMembers_part hmembers key value
        (settled_joined .object (es.map Entry.part) gap r) h
      -- What was there before is told of any draft, since that of a known member has one name more.
      rcases hrest with ⟨unknown, h⟩ | ⟨m, update, known, new, h⟩
      · obtain ⟨hb, hseen, hpairwise⟩ := ih keys values h
        refine ⟨hb, List.forall_mem_cons.2 ⟨?_, hseen⟩, .cons ?_ hpairwise⟩
        · exact fun field hfills => absurd hfills (named.not_fills unknown field)
        · exact fun f _ field hfills => absurd hfills (named.not_fills unknown field)
      · obtain ⟨hb, hseen, hpairwise⟩ := ih keys values h
        refine ⟨hb, List.forall_mem_cons.2 ⟨?_, ?_⟩, .cons ?_ hpairwise⟩
        · intro field hfills
          rw [named.eq_of_fills known hfills]
          exact new
        · exact fun f hf field hfills hmem => hseen f hf field hfills (List.mem_cons_of_mem _ hmem)
        · intro f hf field hfills hfills'
          have hnew := hseen f hf field hfills'
          rw [named.eq_of_fills known hfills] at hnew
          exact hnew List.mem_cons_self

end

/-! ## Records -/

section
variable {title : String} {start : σ} {members : List (Member σ)} {s : σ}

theorem close_eq_ok {finish : Bytes → Except Fault Bytes} {place : Bytes → Bytes}
    {x : Except Stop (σ × Bytes)} :
    close finish place x = .ok (s, r) ↔ ∃ rest, x = .ok (s, rest) ∧ finish rest = .ok r := by
  cases x with
  | error stop => cases stop <;> simp [close]
  | ok found =>
    obtain ⟨s', rest⟩ := found
    simp only [close, bind_eq_ok, pure_eq_ok, Prod.mk.injEq, Except.ok.injEq]
    constructor
    · rintro ⟨rest', hfinish, rfl, rfl⟩
      exact ⟨rest, ⟨rfl, rfl⟩, hfinish⟩
    · rintro ⟨rest, ⟨rfl, rfl⟩, hfinish⟩
      exact ⟨r, hfinish, rfl, rfl⟩

theorem fromObject_eq_ok :
    fromObject start members b = .ok (s, r)
      ↔ ∃ d, objectMembers members (b.length + 1) true { value := start } b = .ok (d, r)
        ∧ Schema.firstMissing members d.seen = none ∧ d.value = s := by
  constructor
  · intro h
    obtain ⟨⟨d, rest⟩, hmembers, h⟩ := bind_eq_ok.1 h
    dsimp only at h
    split at h
    next => cases h
    next hmissing =>
      cases h
      exact ⟨d, hmembers, hmissing, rfl⟩
  · rintro ⟨d, hmembers, hmissing, rfl⟩
    rw [fromObject, hmembers, ok_bind]
    simp only [hmissing]
    rfl

theorem record_object (es : List Entry) (gap : Blanks) (r : Bytes) :
    record title start members (Bracket.object.enclose (es.map Entry.part) gap ++ r)
      = close endObject placeAtEndObject
        (fromObject start members (joined true (es.map Entry.part) ++ (gap.1 ++ 0x7D :: r))) := by
  have hbytes : Bracket.object.enclose (es.map Entry.part) gap ++ r
      = 0x7B :: (joined true (es.map Entry.part) ++ (gap.1 ++ 0x7D :: r)) := by
    simp [Bracket.enclose, Bracket.opening, Bracket.closing]
  rw [hbytes, record, value_of_not_isBlank (by decide), ok_bind]
  exact if_pos rfl

theorem record_list (ps : List Part) (gap : Blanks) (r : Bytes) :
    record title start members (Bracket.list.enclose ps gap ++ r)
      = close endList placeAtEndList
        (listMembers (Schema.elementsOf title members.length) members 0 true start
          (joined true ps ++ (gap.1 ++ 0x5D :: r))) := by
  have hbytes : Bracket.list.enclose ps gap ++ r
      = 0x5B :: (joined true ps ++ (gap.1 ++ 0x5D :: r)) := by
    simp [Bracket.enclose, Bracket.opening, Bracket.closing]
  rw [hbytes, record, value_of_not_isBlank (by decide), ok_bind]
  exact (if_neg (by decide)).trans (if_pos rfl)

/-- A record is read from an object to the end of the object, and no two members fill one field. -/
theorem record_object_extent (hmembers : ∀ m ∈ members, Orderly m.read) {es : List Entry}
    (keys : ∀ e ∈ es, StringBody e.key) (values : ∀ e ∈ es, IsValue e.value) {gap : Blanks}
    (h : record title start members (Bracket.object.enclose (es.map Entry.part) gap ++ r)
      = .ok (s, r')) :
    r' = r
      ∧ es.Pairwise fun e f => ∀ field, e.Fills members field → ¬ f.Fills members field := by
  rw [record_object] at h
  obtain ⟨rest, hobject, hend⟩ := close_eq_ok.1 h
  obtain ⟨d, hread, -, -⟩ := fromObject_eq_ok.1 hobject
  obtain ⟨rfl, -, hpairwise⟩ := objectMembers_extent hmembers keys values hread
  cases hend
  exact ⟨rfl, hpairwise⟩

theorem record_list_extent (hmembers : ∀ m ∈ members, Orderly m.read) {ps : List Part}
    (h : ∀ p ∈ ps, IsValue p.text) {gap : Blanks}
    (hok : record title start members (Bracket.list.enclose ps gap ++ r) = .ok (s, r')) :
    r' = r := by
  rw [record_list] at hok
  obtain ⟨rest, hread, hend⟩ := close_eq_ok.1 hok
  obtain ⟨first, ps', gap', hvalues, rfl⟩ := listMembers_extent hmembers h hread
  exact endList_extent hvalues hend

end

/-! ## What is put in -/

section
variable {title : String} {start : σ} {members : List (Schema.Member Decoder σ)} {es : List Entry}

/-- A member as it is written: a key that names it, and a value that is read for it. -/
structure Written (members : List (Schema.Member Decoder σ)) where
  member : Schema.Member Decoder σ
  key : String
  value : Value
  update : σ → σ
  found : members.find? (·.answersTo key) = some member
  reads : Reads member.read.json value update

namespace Written

/-- The key with the value. -/
def pair (w : Written members) : String × Value :=
  (w.key, w.value)

/-- The draft with the member in it. -/
def put (d : Draft σ) (w : Written members) : Draft σ :=
  d.put w.member.name w.update

theorem value_foldl_put (d : Draft σ) (ws : List (Written members)) :
    (ws.foldl put d).value = ws.foldl (fun s w => w.update s) d.value := by
  induction ws generalizing d with
  | nil => rfl
  | cons w ws ih => exact ih (put d w)

theorem mem_seen_foldl_put {d : Draft σ} {ws : List (Written members)} {name : String} :
    name ∈ (ws.foldl put d).seen ↔ name ∈ ws.map (·.member.name) ∨ name ∈ d.seen := by
  induction ws generalizing d with
  | nil => simp
  | cons w ws ih =>
    rw [List.foldl_cons, ih]
    simp only [put, Draft.put, List.map_cons, List.mem_cons]
    constructor
    · rintro (h | h | h)
      · exact .inl (.inr h)
      · exact .inl (.inl h)
      · exact .inr h
    · rintro ((h | h) | h)
      · exact .inr (.inl h)
      · exact .inl h
      · exact .inr (.inr h)

end Written

/-! ## Members in any order -/

/-- Whether a member of an object is read for one that is written, whatever follows it, or is none that the
record knows. -/
inductive Taken (members : List (Schema.Member Decoder σ)) (e : Entry) :
    Option (Written members) → Prop where
  | own {w : Written members} {name : String} (named : e.Named name)
      (found : members.find? (·.answersTo name) = some w.member)
      (read : ∀ r, w.member.read.json (e.spacing.ahead.1 ++ (e.value ++ r)) = .ok (w.update, r)) :
      Taken members e (some w)
  | other {name : String} (named : e.Named name)
      (unknown : members.find? (·.answersTo name) = none) (value : IsValue e.value) :
      Taken members e none

theorem find?_memberJson (name : String) :
    (members.map Decoder.memberJson).find? (·.answersTo name)
      = (members.find? (·.answersTo name)).map Decoder.memberJson := by
  rw [List.find?_map]
  rfl

/-- The members of an object that the record knows come into the draft, one after the other. -/
theorem objectMembers_taken {os : List (Option (Written members))}
    (taken : List.Forall₂ (Taken members) es os) {d : Draft σ} (nodup : (os.reduceOption.map (·.member.name)).Nodup)
    (new : ∀ w ∈ os.reduceOption, w.member.name ∉ d.seen) {fuel : Nat} (hfuel : es.length < fuel)
    (first : Bool) (gap : Blanks) (r : Bytes) :
    objectMembers (members.map Decoder.memberJson) fuel first d
        (joined first (es.map Entry.part) ++ (gap.1 ++ 0x7D :: r))
      = .ok (os.reduceOption.foldl Written.put d, 0x7D :: r) := by
  induction taken generalizing d fuel first with
  | nil =>
    obtain ⟨n, rfl⟩ := Nat.exists_eq_succ_of_ne_zero (Nat.ne_zero_of_lt hfuel)
    rw [List.map_nil, joined, List.nil_append, objectMembers, moreMembers_end]
    rfl
  | @cons e o es os htaken _ ih =>
    obtain ⟨n, rfl⟩ := Nat.exists_eq_succ_of_ne_zero (Nat.ne_zero_of_lt hfuel)
    have hlength : es.length < n := Nat.lt_of_succ_lt_succ hfuel
    simp only [List.map_cons, joined, List.append_assoc]
    cases htaken with
    | @other name named unknown value =>
      rw [List.reduceOption_cons_of_none] at nodup new ⊢
      have hunknown : (members.map Decoder.memberJson).find? (·.answersTo name) = none := by
        rw [find?_memberJson, unknown, Option.map_none]
      have hmore : Settled (joined false (es.map Entry.part) ++ (gap.1 ++ 0x7D :: r)) :=
        settled_joined .object (es.map Entry.part) gap r
      rw [objectMembers_unknown named hunknown value hmore]
      exact ih nodup new hlength false
    | @own w name named found read =>
      rw [List.reduceOption_cons_of_some] at nodup new ⊢
      rw [List.map_cons, List.nodup_cons] at nodup
      have hnew : ∀ x ∈ os.reduceOption, x.member.name ∉ (Written.put d w).seen := by
        intro x hx hmem
        rcases List.mem_cons.1 hmem with hname | hmem
        · exact nodup.1 (hname ▸ List.mem_map_of_mem hx)
        · exact new x (List.mem_cons_of_mem w hx) hmem
      have hfound : (members.map Decoder.memberJson).find? (·.answersTo name)
          = some (Decoder.memberJson w.member) := by
        rw [find?_memberJson, found, Option.map_some]
      rw [objectMembers_known named hfound (new w List.mem_cons_self)]
      show stopAt (w.member.read.json _) >>= _ = _
      rw [read]
      exact ih nodup.2 hnew hlength false

theorem length_le_joined (first : Bool) (es : List Entry) :
    es.length ≤ (joined first (es.map Entry.part)).length := by
  induction es generalizing first with
  | nil => exact Nat.le_refl 0
  | cons e es ih =>
    have hes := ih false
    simp only [List.map_cons, joined, Entry.part, List.length_append, List.length_cons]
    omega

/-- A record is read from an object that has every required member, and no member twice. -/
theorem record_taken {os : List (Option (Written members))}
    (taken : List.Forall₂ (Taken members) es os)
    (nodup : (os.reduceOption.map (·.member.name)).Nodup)
    (complete : ∀ m ∈ members, m.required = true → m.name ∈ os.reduceOption.map (·.member.name))
    (gap : Blanks) (r : Bytes) :
    (Decoder.record title start members).json
        (Bracket.object.enclose (es.map Entry.part) gap ++ r)
      = .ok (os.reduceOption.foldl (fun s w => w.update s) start, r) := by
  show record title start (members.map Decoder.memberJson) _ = _
  rw [record_object, close_eq_ok]
  refine ⟨0x7D :: r, fromObject_eq_ok.2
    ⟨os.reduceOption.foldl Written.put { value := start }, ?_, ?_, ?_⟩, rfl⟩
  · refine objectMembers_taken taken nodup (fun _ _ => List.not_mem_nil) ?_ true gap r
    have hlength := length_le_joined true es
    rw [List.length_append]
    omega
  · rw [Schema.firstMissing, Option.map_eq_none_iff, List.find?_eq_none]
    intro m hm
    obtain ⟨n, hn, rfl⟩ := List.mem_map.1 hm
    simp only [Bool.and_eq_true, Bool.not_eq_true', List.contains_eq_mem, decide_eq_false_iff_not,
      Written.mem_seen_foldl_put]
    rintro ⟨required, hnot⟩
    exact hnot (.inl (complete n hn required))
  · exact Written.value_foldl_put _ _

/-- A record is read alike from any order of its members, among any that it does not know, if what its
members do to it may be done in any order. -/
theorem record_perm {own others : List Entry} {ws : List (Written members)}
    (perm : es.Perm (own ++ others)) (taken : List.Forall₂ (fun e w => Taken members e (some w)) own ws)
    (unknown : ∀ e ∈ others, Taken members e none)
    (nodup : (ws.map (·.member.name)).Nodup)
    (complete : ∀ m ∈ members, m.required = true → m.name ∈ ws.map (·.member.name))
    (commute : ∀ w ∈ ws, ∀ v ∈ ws, ∀ s, v.update (w.update s) = w.update (v.update s))
    (gap : Blanks) (r : Bytes) :
    (Decoder.record title start members).json
        (Bracket.object.enclose (es.map Entry.part) gap ++ r)
      = .ok (ws.foldl (fun s w => w.update s) start, r) := by
  have htaken : List.Forall₂ (Taken members) (own ++ others)
      (ws.map some ++ others.map fun _ => none) := by
    refine List.rel_append (List.forall₂_map_right_iff.2 taken) ?_
    exact List.forall₂_map_right_iff.2 (List.forall₂_same.2 unknown)
  -- What the members are taken for goes into the order of the members; those not known then drop out.
  obtain ⟨os, hos, hperm⟩ := List.perm_comp_forall₂ perm htaken
  have hws : os.reduceOption.Perm ws := by
    have h : os.reduceOption.Perm (ws.map some ++ others.map fun _ => none).reduceOption :=
      hperm.filterMap id
    simpa [List.reduceOption] using h
  have hnames := hws.map (·.member.name)
  rw [record_taken hos (hnames.nodup_iff.2 nodup)
    (fun m hm required => hnames.mem_iff.2 (complete m hm required))]
  have hcommute : ∀ w ∈ os.reduceOption, ∀ v ∈ os.reduceOption, ∀ s,
      v.update (w.update s) = w.update (v.update s) :=
    fun w hw v hv => commute w (hws.mem_iff.1 hw) v (hws.mem_iff.1 hv)
  rw [hws.foldl_eq' hcommute]

/-! ## Records as they are written -/

theorem Written.taken (w : Written members) :
    Taken members (.plain w.key w.value.bytes) (some w) :=
  .own (Entry.named_plain w.key _) w.found w.reads

/-- A record is read from an object that has every required member, and no member twice, in any
order. -/
theorem reads_record {title : String} {start : σ} (ws : List (Written members))
    {names : List String} (hnames : ws.map (·.member.name) = names) (nodup : names.Nodup)
    (complete : ∀ m ∈ members, m.required = true → m.name ∈ names) :
    Reads (Decoder.record title start members).json (.object (ws.map Written.pair))
      (ws.foldl (fun s w => w.update s) start) := by
  subst hnames
  intro rest
  have htaken : List.Forall₂ (Taken members)
      ((ws.map Written.pair).map fun m => Entry.plain m.1 m.2.bytes) (ws.map some) := by
    rw [List.map_map, List.forall₂_map_left_iff, List.forall₂_map_right_iff, List.forall₂_same]
    exact fun w _ => w.taken
  have hws : (ws.map some).reduceOption = ws := by simp [List.reduceOption]
  rw [← hws] at nodup complete
  rw [bytes_object_enclose, record_taken htaken nodup complete, hws]

theorem orderly_membersJson (h : ∀ m ∈ members, Orderly m.read.json) :
    ∀ m ∈ members.map Decoder.memberJson, Orderly m.read :=
  List.forall_mem_map.2 h

theorem orderly_record (h : ∀ m ∈ members, Orderly m.read.json) :
    Orderly (Decoder.record title start members).json where
  blanks ws b := by simp only [Decoder.record, record, value_blanks]
  extent := by
    intro t r s r' ht hr hok
    obtain ⟨c, u, rfl, hblank, -⟩ := ht.exists_cons
    have hopen : c = 0x7B ∨ c = 0x5B := by
      change record title start (members.map Decoder.memberJson) (c :: (u ++ r)) = .ok (s, r') at hok
      rw [record, value_of_not_isBlank hblank, ok_bind] at hok
      dsimp only at hok
      split at hok
      next hobject => exact .inl hobject
      next =>
        split at hok
        next hlist => exact .inr hlist
        next => cases hok
    rcases hopen with rfl | rfl
    · obtain ⟨es, gap, keys, values, hbytes⟩ := ht.object_of_cons
      rw [hbytes] at hok
      exact (record_object_extent (orderly_membersJson h) keys values hok).1
    · obtain ⟨ps, gap, hps, hbytes⟩ := ht.list_of_cons
      rw [hbytes] at hok
      exact record_list_extent (orderly_membersJson h) hps hok

end

/-! ## Whole texts -/

/-- An object as a whole text, with blanks in front of it and behind. -/
structure Document where
  front : Blanks
  entries : List Entry
  gap : Blanks
  behind : Blanks

namespace Document

/-- The object, without the blanks around it. -/
def object (t : Document) : Bytes :=
  Bracket.object.enclose (t.entries.map Entry.part) t.gap

def bytes (t : Document) : Bytes :=
  t.front.1 ++ (t.object ++ t.behind.1)

/-- Whether the keys of an object are texts of strings, and its values texts of values. -/
def WellFormed (t : Document) : Prop :=
  ∀ e ∈ t.entries, StringBody e.key ∧ IsValue e.value

/-- A whole text is read if the object is, to its end. -/
theorem parse_eq_ok {read : Reader α} (h : Orderly read) (t : Document) {a : α} :
    parse read t.bytes = .ok a
      ↔ ∃ rest, read (t.object ++ t.behind.1) = .ok (a, rest) ∧ skipBlank rest = [] := by
  rw [parse, bytes, h.blanks]
  cases hread : read (t.object ++ t.behind.1) with
  | error f => simp
  | ok found =>
    obtain ⟨x, rest⟩ := found
    dsimp only
    cases hrest : skipBlank rest with
    | nil => simp [hrest]
    | cons c r => simp [hrest]

theorem skipBlank_behind (t : Document) : skipBlank t.behind.1 = [] := by
  have h := skipBlank_blanks t.behind []
  rwa [List.append_nil] at h

end Document

end PbxAgent.Json

import Mathlib.Data.List.Nodup
import PbxAgent.Proofs.Fallible
import PbxAgent.Toml.Value

/-!
# Tables that are read

A record is read from a table if every entry of a known name is read, no member is there twice and every
required one is there; it is what the updates of the entries make of the defaults (`fromTable_eq_ok`). The
entry of a member that does not disturb the others may stand anywhere (`fromTable_placed`), and what its
value makes of the record is told without them (`fromTable_replace`, `fromTable_insert`).
-/

namespace PbxAgent.Toml

open Schema

variable {σ : Type} {members : List (Member σ)} {m : Member σ} {start x : σ}
  {entries others l r : List (String × Value)}

/-! ## Updates -/

/-- What an entry does to a record, under the name of its member. -/
abbrev Update (σ : Type) := String × (σ → σ)

/-- The record after updates, one after the other. -/
def applied (us : List (Update σ)) (s : σ) : σ :=
  us.foldl (fun s u => u.2 s) s

theorem applied_append (us vs : List (Update σ)) (s : σ) :
    applied (us ++ vs) s = applied vs (applied us s) :=
  List.foldl_append

/-- The updates of a table's entries, in order. Entries of unknown names have none. -/
inductive Fills (members : List (Member σ)) : List (String × Value) → List (Update σ) → Prop where
  | nil : Fills members [] []
  | unknown {key : String} {v : Value} {r : List (String × Value)} {us : List (Update σ)}
      (unknown : members.find? (·.answersTo key) = none) (rest : Fills members r us) :
      Fills members ((key, v) :: r) us
  | known {key : String} {v : Value} {r : List (String × Value)} {us : List (Update σ)}
      {m : Member σ} {u : σ → σ} (found : members.find? (·.answersTo key) = some m)
      (read : m.read v = .ok u) (rest : Fills members r us) :
      Fills members ((key, v) :: r) ((m.name, u) :: us)

theorem fills_cons {key : String} {v : Value} {us : List (Update σ)}
    (found : members.find? (·.answersTo key) = some m) :
    Fills members ((key, v) :: r) us
      ↔ ∃ u vs, m.read v = .ok u ∧ Fills members r vs ∧ (m.name, u) :: vs = us := by
  constructor
  · intro h
    cases h with
    | unknown unknown =>
      rw [found] at unknown
      cases unknown
    | known found' read rest =>
      rw [found] at found'
      cases found'
      exact ⟨_, _, read, rest, rfl⟩
  · rintro ⟨u, vs, read, rest, rfl⟩
    exact .known found read rest

theorem fills_append {us : List (Update σ)} :
    Fills members (l ++ r) us ↔ ∃ vs ws, Fills members l vs ∧ Fills members r ws ∧ vs ++ ws = us := by
  constructor
  · intro h
    induction l generalizing us with
    | nil => exact ⟨[], us, .nil, h, rfl⟩
    | cons e l ih =>
      cases h with
      | unknown unknown rest =>
        obtain ⟨vs, ws, hl, hr, rfl⟩ := ih rest
        exact ⟨vs, ws, .unknown unknown hl, hr, rfl⟩
      | known found read rest =>
        obtain ⟨vs, ws, hl, hr, rfl⟩ := ih rest
        exact ⟨_ :: vs, ws, .known found read hl, hr, rfl⟩
  · rintro ⟨vs, ws, hl, hr, rfl⟩
    induction hl with
    | nil => exact hr
    | unknown unknown _ ih => exact .unknown unknown ih
    | known found read _ ih => exact .known found read ih

theorem Fills.exists_member {us : List (Update σ)} {u : Update σ} (h : Fills members entries us)
    (hu : u ∈ us) : ∃ m ∈ members, ∃ e ∈ entries,
      m.answersTo e.1 = true ∧ m.name = u.1 ∧ m.read e.2 = .ok u.2 := by
  induction h with
  | nil => cases hu
  | unknown _ _ ih =>
    obtain ⟨m, hm, e, he, hmember⟩ := ih hu
    exact ⟨m, hm, e, List.mem_cons_of_mem _ he, hmember⟩
  | @known key v _ _ m _ found read _ ih =>
    rcases List.mem_cons.1 hu with rfl | hu
    · have answers : m.answersTo key = true := by simpa using List.find?_some found
      exact ⟨m, List.mem_of_find?_eq_some found, (key, v), List.mem_cons_self, answers, rfl, read⟩
    · obtain ⟨m, hm, e, he, hmember⟩ := ih hu
      exact ⟨m, hm, e, List.mem_cons_of_mem _ he, hmember⟩

/-! ## Records -/

/-- Whether every required member is among the names. -/
def Covers (members : List (Member σ)) (names : List String) : Prop :=
  ∀ m ∈ members, m.required = true → m.name ∈ names

theorem firstMissing_eq_none {seen : List String} :
    firstMissing members seen = none ↔ Covers members seen := by
  simp only [firstMissing, Option.map_eq_none_iff, List.find?_eq_none, Bool.and_eq_true, Covers,
    Bool.not_eq_true', List.contains_eq_mem, decide_eq_false_iff_not, not_and, Decidable.not_not]

theorem tableMembers_eq_ok {d d' : Draft σ} :
    tableMembers members d entries = .ok d'
      ↔ ∃ us, Fills members entries us ∧ (us.map Prod.fst).Nodup
        ∧ (∀ name ∈ us.map Prod.fst, name ∉ d.seen)
        ∧ ⟨applied us d.value, (us.map Prod.fst).reverse ++ d.seen⟩ = d' := by
  induction entries generalizing d with
  | nil =>
    constructor
    · rintro ⟨⟩
      exact ⟨[], .nil, .nil, nofun, rfl⟩
    · rintro ⟨us, ⟨⟩, -, -, rfl⟩
      rfl
  | cons e entries ih =>
    obtain ⟨key, v⟩ := e
    cases found : members.find? (·.answersTo key) with
    | none =>
      simp only [tableMembers, found, ih]
      constructor
      · rintro ⟨us, hfills, hus⟩
        exact ⟨us, .unknown found hfills, hus⟩
      · rintro ⟨us, hfills, hus⟩
        cases hfills with
        | unknown _ rest => exact ⟨us, rest, hus⟩
        | known found' =>
          rw [found] at found'
          cases found'
    | some m =>
      simp only [tableMembers, found, fills_cons found]
      by_cases hseen : m.name ∈ d.seen
      · rw [if_pos (List.contains_iff_mem.2 hseen)]
        refine iff_of_false nofun ?_
        rintro ⟨_, ⟨u, us, -, -, rfl⟩, -, new, -⟩
        exact new m.name List.mem_cons_self hseen
      · rw [if_neg (by simpa using hseen)]
        simp only [bind_eq_ok, ih]
        constructor
        · rintro ⟨u, read, us, hfills, nodup, new, rfl⟩
          have hnew : ∀ name ∈ us.map Prod.fst, name ≠ m.name ∧ name ∉ d.seen := fun name hname =>
            not_or.1 (mt List.mem_cons.2 (new name hname))
          refine ⟨_, ⟨u, us, read, hfills, rfl⟩, ?_, ?_, by simp [applied, Draft.put]⟩
          · exact List.nodup_cons.2 ⟨fun hmem => (hnew _ hmem).1 rfl, nodup⟩
          · exact List.forall_mem_cons.2 ⟨hseen, fun name hname => (hnew name hname).2⟩
        · rintro ⟨_, ⟨u, us, read, hfills, rfl⟩, nodup, new, rfl⟩
          obtain ⟨hmem, nodup⟩ := List.nodup_cons.1 nodup
          refine ⟨u, read, us, hfills, nodup, ?_, by simp [applied, Draft.put]⟩
          intro name hname hput
          rcases List.mem_cons.1 hput with rfl | hput
          · exact hmem hname
          · exact new name (List.mem_cons_of_mem _ hname) hput

/-- When a record is read from a table, and which. -/
theorem fromTable_eq_ok :
    fromTable start members entries = .ok x
      ↔ ∃ us, Fills members entries us ∧ (us.map Prod.fst).Nodup
        ∧ Covers members (us.map Prod.fst) ∧ applied us start = x := by
  have hcovers : ∀ us : List (Update σ),
      Covers members ((us.map Prod.fst).reverse ++ []) ↔ Covers members (us.map Prod.fst) := by
    intro us
    simp only [Covers, List.append_nil, List.mem_reverse]
  simp only [fromTable, bind_eq_ok, tableMembers_eq_ok]
  constructor
  · rintro ⟨_, ⟨us, hfills, nodup, -, rfl⟩, hx⟩
    cases missing : firstMissing members ((us.map Prod.fst).reverse ++ []) with
    | some name =>
      rw [missing] at hx
      cases hx
    | none =>
      rw [missing] at hx
      exact ⟨us, hfills, nodup, (hcovers us).1 (firstMissing_eq_none.1 missing), pure_eq_ok.1 hx⟩
  · rintro ⟨us, hfills, nodup, covers, rfl⟩
    refine ⟨_, ⟨us, hfills, nodup, fun _ _ => List.not_mem_nil, rfl⟩, ?_⟩
    rw [firstMissing_eq_none.2 ((hcovers us).2 covers)]
    rfl

/-! ## One entry among others -/

/-- Whether a table is others with one more entry, at any place. -/
def Placed (key : String) (v : Value) (others entries : List (String × Value)) : Prop :=
  ∃ l r, others = l ++ r ∧ entries = l ++ (key, v) :: r

/-- A member that its name, and nothing else, stands for. -/
structure Stands (members : List (Member σ)) (m : Member σ) : Prop where
  nodup : (members.map (·.name)).Nodup
  found : members.find? (·.answersTo m.name) = some m
  unaliased : m.aliases = []

/-- Whether an update may come before or after those of a member. -/
def Commutes (u : σ → σ) (n : Member σ) : Prop :=
  ∀ v u', n.read v = .ok u' → ∀ s, u (u' s) = u' (u s)

/-- Whether an update of a member may come before or after those of the others. -/
def Independent (members : List (Member σ)) (m : Member σ) (u : σ → σ) : Prop :=
  ∀ n ∈ members, n.name ≠ m.name → Commutes u n

/-- An update commutes with a member that puts its value elsewhere. -/
theorem commutes_of_put {α : Type} {name : String} {aliases : List String} {required : Bool}
    {read : Reader α} {put : α → σ → σ} {u : σ → σ} (h : ∀ a s, u (put a s) = put a (u s)) :
    Commutes u { name, aliases, required, read := fun v => (read v).map put } := by
  intro v u' hu s
  cases ha : read v with
  | error e =>
    simp only [ha] at hu
    cases hu
  | ok a =>
    simp only [ha] at hu
    cases hu
    exact h a s

variable {us : List (Update σ)}

theorem Stands.mem (h : Stands members m) : m ∈ members :=
  List.mem_of_find?_eq_some h.found

/-- Without its entry, nothing is put in for the member. -/
theorem Stands.not_mem_names (h : Stands members m) (absent : m.name ∉ others.map Prod.fst)
    (hfills : Fills members others us) : m.name ∉ us.map Prod.fst := by
  intro hmem
  obtain ⟨u, hu, hname⟩ := List.mem_map.1 hmem
  obtain ⟨n, hn, e, he, answers, hname', -⟩ := hfills.exists_member hu
  obtain rfl : n = m := List.inj_on_of_nodup_map h.nodup hn h.mem (hname'.trans hname)
  simp only [Schema.Member.answersTo, h.unaliased, List.contains_nil, Bool.or_false, beq_iff_eq] at answers
  exact absent (List.mem_map.2 ⟨e, he, answers.symm⟩)

theorem Stands.covers_cons (h : Stands members m) (optional : m.required = false)
    {names : List String} : Covers members (m.name :: names) ↔ Covers members names := by
  constructor
  · intro covers n hn required
    rcases List.mem_cons.1 (covers n hn required) with hname | hname
    · obtain rfl := List.inj_on_of_nodup_map h.nodup hn h.mem hname
      rw [optional] at required
      cases required
    · exact hname
  · intro covers n hn required
    exact List.mem_cons_of_mem _ (covers n hn required)

theorem Independent.applied {u : σ → σ} (h : Independent members m u) (hfills : Fills members others us)
    (absent : m.name ∉ us.map Prod.fst) (s : σ) : u (applied us s) = Toml.applied us (u s) := by
  induction hfills generalizing s with
  | nil => rfl
  | unknown _ _ ih => exact ih absent s
  | @known _ _ _ us n u' found read _ ih =>
    obtain ⟨hname, habsent⟩ := not_or.1 (mt List.mem_cons.2 absent)
    show u (Toml.applied us (u' s)) = Toml.applied us (u' (u s))
    rw [ih habsent, h n (List.mem_of_find?_eq_some found) (Ne.symm hname) _ _ read]

/-- What a record is with the entry of one member, by what it is without. -/
theorem fromTable_placed {v : Value} (stands : Stands members m)
    (independent : ∀ u, m.read v = .ok u → Independent members m u)
    (absent : m.name ∉ others.map Prod.fst) (placed : Placed m.name v others entries) :
    fromTable start members entries = .ok x
      ↔ ∃ u us, m.read v = .ok u ∧ Fills members others us ∧ (us.map Prod.fst).Nodup
        ∧ Covers members (m.name :: us.map Prod.fst) ∧ u (applied us start) = x := by
  obtain ⟨l, r, rfl, rfl⟩ := placed
  simp only [fromTable_eq_ok, fills_append, fills_cons stands.found]
  -- The names with the member's in the middle are those with it in front, in another order.
  have hperm : ∀ (vs ws : List (Update σ)) (u : σ → σ),
      ((vs ++ (m.name, u) :: ws).map Prod.fst).Perm (m.name :: (vs ++ ws).map Prod.fst) :=
    fun _ _ _ => List.perm_middle.map Prod.fst
  have hcovers : ∀ (vs ws : List (Update σ)) (u : σ → σ),
      Covers members ((vs ++ (m.name, u) :: ws).map Prod.fst)
        ↔ Covers members (m.name :: (vs ++ ws).map Prod.fst) := by
    intro vs ws u
    simp only [Covers, (hperm vs ws u).mem_iff]
  have happlied : ∀ (vs ws : List (Update σ)) (u : σ → σ), m.read v = .ok u → Fills members r ws →
      m.name ∉ ws.map Prod.fst →
      applied (vs ++ (m.name, u) :: ws) start = u (applied (vs ++ ws) start) := by
    intro vs ws u hread hr hnot
    rw [applied_append, applied_append, (independent u hread).applied hr hnot]
    rfl
  constructor
  · rintro ⟨_, ⟨vs, _, hl, ⟨u, ws, hread, hr, rfl⟩, rfl⟩, nodup, covers, rfl⟩
    obtain ⟨hnot, nodup⟩ := List.nodup_cons.1 ((hperm vs ws u).nodup_iff.1 nodup)
    rw [List.map_append, List.mem_append, not_or] at hnot
    exact ⟨u, _, hread, ⟨vs, ws, hl, hr, rfl⟩, nodup, (hcovers vs ws u).1 covers,
      (happlied vs ws u hread hr hnot.2).symm⟩
  · rintro ⟨u, _, hread, ⟨vs, ws, hl, hr, rfl⟩, nodup, covers, rfl⟩
    have hnot := stands.not_mem_names absent (fills_append.2 ⟨vs, ws, hl, hr, rfl⟩)
    have hws : m.name ∉ ws.map Prod.fst := by
      rw [List.map_append, List.mem_append, not_or] at hnot
      exact hnot.2
    exact ⟨_, ⟨vs, _, hl, ⟨u, ws, hread, hr, rfl⟩, rfl⟩,
      (hperm vs ws u).nodup_iff.2 (List.nodup_cons.2 ⟨hnot, nodup⟩), (hcovers vs ws u).2 covers,
      happlied vs ws u hread hr hws⟩

/-- Without a member that is required there is no record. -/
theorem fromTable_lacking (stands : Stands members m) (required : m.required = true)
    (absent : m.name ∉ entries.map Prod.fst) : fromTable start members entries ≠ .ok x := by
  intro h
  obtain ⟨us, hfills, -, covers, -⟩ := fromTable_eq_ok.1 h
  exact stands.not_mem_names absent hfills (covers m stands.mem required)

/-- Without the entry of a member, a record has there what the defaults have. -/
theorem fromTable_keeps {u : σ → σ} (stands : Stands members m) (independent : Independent members m u)
    (idle : u start = start) (absent : m.name ∉ entries.map Prod.fst)
    (h : fromTable start members entries = .ok x) : u x = x := by
  obtain ⟨us, hfills, -, -, rfl⟩ := fromTable_eq_ok.1 h
  rw [independent.applied hfills (stands.not_mem_names absent hfills), idle]

section
variable {old new : Value} {entries' : List (String × Value)} {f : σ → σ}

/-- With another value for its entry, a member is what the other value makes of it. -/
theorem fromTable_replace (stands : Stands members m)
    (independent : ∀ v u, m.read v = .ok u → Independent members m u)
    (hread : ∀ u', m.read new = .ok u' ↔ ∃ u, m.read old = .ok u ∧ f ∘ u = u')
    (absent : m.name ∉ others.map Prod.fst) (placed : Placed m.name old others entries)
    (placed' : Placed m.name new others entries') :
    fromTable start members entries' = .ok x
      ↔ ∃ y, fromTable start members entries = .ok y ∧ f y = x := by
  simp only [fromTable_placed stands (independent old) absent placed,
    fromTable_placed stands (independent new) absent placed', hread]
  constructor
  · rintro ⟨_, us, ⟨u, hold, rfl⟩, hfills, nodup, covers, rfl⟩
    exact ⟨_, ⟨u, us, hold, hfills, nodup, covers, rfl⟩, rfl⟩
  · rintro ⟨_, ⟨u, us, hold, hfills, nodup, covers, rfl⟩, rfl⟩
    exact ⟨_, us, ⟨u, hold, rfl⟩, hfills, nodup, covers, rfl⟩

/-- With an entry for a member that need not have one, the member is what the entry makes of the
default, as long as the entry is read. -/
theorem fromTable_insert {u : σ → σ} (stands : Stands members m) (optional : m.required = false)
    (independent : ∀ v u, m.read v = .ok u → Independent members m u)
    (hread : m.read new = .ok (f ∘ u)) (idle : Independent members m u) (hstart : u start = start)
    (absent : m.name ∉ others.map Prod.fst) (placed : Placed m.name new others entries) :
    fromTable start members entries = .ok x
      ↔ ∃ y, fromTable start members others = .ok y ∧ f y = x := by
  simp only [fromTable_placed stands (independent new) absent placed, hread,
    stands.covers_cons optional]
  constructor
  · rintro ⟨_, us, ⟨⟩, hfills, nodup, covers, rfl⟩
    have hothers : fromTable start members others = .ok (applied us start) :=
      fromTable_eq_ok.2 ⟨us, hfills, nodup, covers, rfl⟩
    exact ⟨_, hothers, congrArg f (fromTable_keeps stands idle hstart absent hothers).symm⟩
  · rintro ⟨y, hy, rfl⟩
    obtain ⟨us, hfills, nodup, covers, rfl⟩ := fromTable_eq_ok.1 hy
    exact ⟨_, us, rfl, hfills, nodup, covers,
      congrArg f (fromTable_keeps stands idle hstart absent hy)⟩

end

/-! ## Members that put a value in -/

/-- A member that puts what it reads in a place of its own. -/
structure Puts {α : Type} (members : List (Member σ)) (m : Member σ) (read : Reader α)
    (put : α → σ → σ) : Prop where
  stands : Stands members m
  read_eq : m.read = fun v => (read v).map put
  independent : ∀ a, Independent members m (put a)

/-- A member puts its value in a field of its own if the others leave alone what it puts there. -/
theorem Puts.of_field {α : Type} {read : Reader α} {put : α → σ → σ} (stands : Stands members m)
    (read_eq : m.read = fun v => (read v).map put)
    (others : ∀ n ∈ members, n.name = m.name ∨ ∀ a, Commutes (put a) n) : Puts members m read put where
  stands := stands
  read_eq := read_eq
  independent a n hn hname := (others n hn).resolve_left hname a

/-- Whether a table is another one with a text set, where there was another text or nothing. -/
def TextSet (key s : String) (entries entries' : List (String × Value)) : Prop :=
  ∃ others, key ∉ others.map Prod.fst
    ∧ (entries = others ∨ ∃ old, Placed key (.text old) others entries)
    ∧ Placed key (.text s) others entries'

namespace Puts

variable {α : Type} {read : Reader α} {put : α → σ → σ} (h : Puts members m read put)
  {entries' : List (String × Value)}
include h

theorem read_eq_ok {v : Value} {u : σ → σ} : m.read v = .ok u ↔ ∃ a, read v = .ok a ∧ put a = u := by
  rw [h.read_eq]
  cases hread : read v with
  | error e => simp [hread, Except.map]
  | ok a => simp [hread, Except.map]

theorem independent_read (v : Value) (u : σ → σ) (hu : m.read v = .ok u) :
    Independent members m u := by
  obtain ⟨a, -, rfl⟩ := h.read_eq_ok.1 hu
  exact h.independent a

section
variable {f : α → α} {g : σ → σ} (through : ∀ a s, g (put a s) = put (f a) s)
include through

/-- A value that is changed changes the record in its place. -/
theorem replace {old new : Value} (hread : ∀ b, read new = .ok b ↔ ∃ a, read old = .ok a ∧ f a = b)
    (absent : m.name ∉ others.map Prod.fst) (placed : Placed m.name old others entries)
    (placed' : Placed m.name new others entries') :
    fromTable start members entries' = .ok x
      ↔ ∃ y, fromTable start members entries = .ok y ∧ g y = x := by
  have hcomp : ∀ a, g ∘ put a = put (f a) := fun a => funext (through a)
  refine fromTable_replace h.stands h.independent_read ?_ absent placed placed'
  intro u'
  simp only [h.read_eq_ok, hread]
  constructor
  · rintro ⟨_, ⟨a, ha, rfl⟩, rfl⟩
    exact ⟨_, ⟨a, ha, rfl⟩, hcomp a⟩
  · rintro ⟨_, ⟨a, ha, rfl⟩, rfl⟩
    exact ⟨_, ⟨a, ha, rfl⟩, (hcomp a).symm⟩

/-- A value that is put in changes the record as it would change the default. -/
theorem insert {a : α} {new : Value} (optional : m.required = false) (default : put a start = start)
    (hread : read new = .ok (f a)) (absent : m.name ∉ others.map Prod.fst)
    (placed : Placed m.name new others entries) :
    fromTable start members entries = .ok x
      ↔ ∃ y, fromTable start members others = .ok y ∧ g y = x :=
  fromTable_insert h.stands optional h.independent_read
    (h.read_eq_ok.2 ⟨_, hread, (funext (through a)).symm⟩) (h.independent a) default absent placed

/-- A table within a table that is changed, or put in, changes the record in its place. -/
theorem set_table {a : α} {inner inner' : List (String × Value)} (optional : m.required = false)
    (default : put a start = start) (empty : read (.table []) = .ok a)
    (hread : ∀ c, read (.table inner') = .ok c ↔ ∃ b, read (.table inner) = .ok b ∧ f b = c)
    (absent : m.name ∉ others.map Prod.fst)
    (before : entries = others ∧ inner = [] ∨ Placed m.name (.table inner) others entries)
    (after : Placed m.name (.table inner') others entries') :
    fromTable start members entries' = .ok x
      ↔ ∃ y, fromTable start members entries = .ok y ∧ g y = x := by
  rcases before with ⟨rfl, rfl⟩ | before
  · exact h.insert through optional default ((hread _).2 ⟨a, empty, rfl⟩) absent after
  · exact h.replace through hread absent before after

end

end Puts

/-- A text that is set is the one that is put in, whatever was there before; but a member that is
required must have been there. -/
theorem Puts.set_text {put : String → σ → σ} (h : Puts members m text put)
    {entries' : List (String × Value)} (again : ∀ s t x, put s (put t x) = put s x)
    (there : m.name ∈ entries.map Prod.fst ∨ m.required = false ∧ ∃ s, put s start = start) {s : String}
    (set : TextSet m.name s entries entries') :
    fromTable start members entries' = .ok x
      ↔ ∃ y, fromTable start members entries = .ok y ∧ put s y = x := by
  obtain ⟨others, absent, before, after⟩ := set
  have through : ∀ t y, put s (put t y) = put ((fun _ => s) t) y := again s
  rcases before with rfl | ⟨old, before⟩
  · rcases there with hmem | ⟨optional, t, default⟩
    · exact absurd hmem absent
    · exact h.insert through optional default rfl absent after
  · refine h.replace through ?_ absent before after
    intro t
    simp [text]

end PbxAgent.Toml

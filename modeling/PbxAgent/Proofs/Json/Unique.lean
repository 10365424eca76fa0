import PbxAgent.Proofs.Json.Values

/-!
# Texts of one value

No two values are written alike (`Value.bytes_injective`): the text of a value can be told from what
follows it (`Distinct`), a number for as long as no digit follows. Lists and objects are told apart
part by part, since the parts are and neither a comma nor a bracket begins one.
-/

namespace PbxAgent.Json

variable {α : Type}

/-- Whether a text does not go on with a digit. -/
def Halts (r : Bytes) : Prop :=
  ∀ c ∈ r.head?, isDigit c = false

theorem halts_nil : Halts [] := by
  intro c hc
  cases hc

theorem halts_cons {c : UInt8} (h : isDigit c = false) (r : Bytes) : Halts (c :: r) := by
  intro d hd
  rw [List.head?_cons, Option.mem_some] at hd
  rw [← hd]
  exact h

/-- Whether what is written for something is written for nothing else, and ends in one place. -/
def Distinct (write : α → Bytes) (a : α) : Prop :=
  ∀ b r s, Halts r → Halts s → write a ++ r = write b ++ s → a = b ∧ r = s

/-! ## Scalars -/

/-- Values that begin a text alike are of one kind. -/
theorem kind_eq {v w : Value} {r s : Bytes} (h : v.bytes ++ r = w.bytes ++ s) :
    v.kind = w.kind := by
  obtain ⟨c, t, hv, hc⟩ := exists_head_bytes v
  obtain ⟨d, u, hw, hd⟩ := exists_head_bytes w
  rw [hv, hw, List.cons_append, List.cons_append, List.cons.injEq] at h
  rw [h.1, hd, Option.some_inj] at hc
  exact hc.symm

/-- The digits of a number are all those up to what follows. -/
theorem takeWhile_natural (n : Nat) {r : Bytes} (h : Halts r) :
    ((Value.natural n).bytes ++ r).takeWhile isDigit = (Value.natural n).bytes := by
  have hdigits : ∀ c ∈ (Value.natural n).bytes, isDigit c = true := fun c => isDigit_of_mem_bytes
  rw [List.takeWhile_append_of_pos hdigits]
  cases r with
  | nil => exact List.append_nil _
  | cons c r =>
    have hc : isDigit c = false := h c rfl
    rw [List.takeWhile_cons_of_neg (by simp [hc]), List.append_nil]

theorem natural_eq {n m : Nat} {r s : Bytes} (hr : Halts r) (hs : Halts s)
    (h : (Value.natural n).bytes ++ r = (Value.natural m).bytes ++ s) : n = m ∧ r = s := by
  have hbytes : (Value.natural n).bytes = (Value.natural m).bytes := by
    rw [← takeWhile_natural n hr, h, takeWhile_natural m hs]
  refine ⟨?_, List.append_cancel_left (hbytes ▸ h)⟩
  rw [bytes_natural, bytes_natural] at hbytes
  have hdigits : Nat.toDigits 10 n = Nat.toDigits 10 m := by
    rw [← Nat.toList_repr, Text.Utf8.encode_injective hbytes, Nat.toList_repr]
  calc n = Nat.ofDigitChars 10 (Nat.toDigits 10 n) 0 := Nat.ofDigitChars_ten_toDigits.symm
    _ = Nat.ofDigitChars 10 (Nat.toDigits 10 m) 0 := by rw [hdigits]
    _ = m := Nat.ofDigitChars_ten_toDigits

theorem string_eq {s t : String} {r u : Bytes}
    (h : (Value.string s).bytes ++ r = (Value.string t).bytes ++ u) : s = t ∧ r = u := by
  have hread := reads_text s r
  rw [h, reads_text t u, Except.ok.injEq, Prod.mk.injEq] at hread
  exact ⟨hread.1.symm, hread.2.symm⟩

/-! ## Parts with commas between them -/

/-- Behind a part stands a comma or the closing bracket. -/
theorem halts_separated {close : UInt8} (hclose : isDigit close = false) (ps : List Bytes)
    (r : Bytes) : Halts (separated false ps ++ close :: r) := by
  cases ps with
  | nil => exact halts_cons hclose r
  | cons p ps => exact halts_cons (by decide) _

/-- Where a part stands, there is no closing bracket. -/
theorem cons_ne_separated {close : UInt8} (hcomma : close ≠ 0x2C) {p : Bytes}
    (hp : ∃ c t, p = c :: t ∧ c ≠ close) (first : Bool) (ps : List Bytes) (r s : Bytes) :
    close :: r ≠ separated first (p :: ps) ++ s := by
  intro heq
  cases first with
  | true =>
    obtain ⟨c, t, rfl, hc⟩ := hp
    exact hc (List.cons.inj heq).1.symm
  | false => exact hcomma (List.cons.inj heq).1

/-- Parts up to a closing bracket are told apart if each of them is and none begins with the
bracket. -/
theorem separated_eq {write : α → Bytes} {close : UInt8} (hclose : isDigit close = false)
    (hcomma : close ≠ 0x2C) (hhead : ∀ b, ∃ c t, write b = c :: t ∧ c ≠ close) {as : List α}
    (h : ∀ a ∈ as, Distinct write a) (first : Bool) {bs : List α} {r s : Bytes}
    (heq : separated first (as.map write) ++ close :: r
      = separated first (bs.map write) ++ close :: s) : as = bs ∧ r = s := by
  induction as generalizing first bs with
  | nil =>
    cases bs with
    | nil => exact ⟨rfl, (List.cons.inj heq).2⟩
    | cons b bs => exact absurd heq (cons_ne_separated hcomma (hhead b) first _ _ _)
  | cons a as ih =>
    cases bs with
    | nil => exact absurd heq.symm (cons_ne_separated hcomma (hhead a) first _ _ _)
    | cons b bs =>
      simp only [List.map_cons, separated, List.append_assoc, List.append_right_inj] at heq
      obtain ⟨rfl, hrest⟩ := h a List.mem_cons_self b _ _ (halts_separated hclose _ r)
        (halts_separated hclose _ s) heq
      obtain ⟨rfl, hr⟩ := ih (fun x hx => h x (List.mem_cons_of_mem a hx)) false hrest
      exact ⟨rfl, hr⟩

theorem list_eq {vs ws : List Value} (h : ∀ v ∈ vs, Distinct Value.bytes v) {r s : Bytes}
    (heq : (Value.list vs).bytes ++ r = (Value.list ws).bytes ++ s) : vs = ws ∧ r = s := by
  have hhead : ∀ v : Value, ∃ c t, v.bytes = c :: t ∧ c ≠ 0x5D := by
    intro v
    obtain ⟨c, t, hv, hc⟩ := exists_head_bytes v
    exact ⟨c, t, hv, (Kind.of_ofByte? hc).2⟩
  simp only [bytes_list, List.cons_append, List.append_assoc, List.nil_append,
    List.cons.injEq, true_and] at heq
  exact separated_eq (by decide) (by decide) hhead h true heq

theorem distinct_member {m : String × Value} (h : Distinct Value.bytes m.2) :
    Distinct memberBytes m := by
  intro n r s hr hs heq
  simp only [memberBytes, List.append_assoc, List.cons_append] at heq
  obtain ⟨hkey, hrest⟩ := string_eq heq
  obtain ⟨hvalue, hr⟩ := h n.2 r s hr hs (List.cons.inj hrest).2
  exact ⟨Prod.ext hkey hvalue, hr⟩

theorem object_eq {ms ns : List (String × Value)} (h : ∀ m ∈ ms, Distinct Value.bytes m.2)
    {r s : Bytes} (heq : (Value.object ms).bytes ++ r = (Value.object ns).bytes ++ s) :
    ms = ns ∧ r = s := by
  have hhead : ∀ m : String × Value, ∃ c t, memberBytes m = c :: t ∧ c ≠ 0x7D := by
    intro m
    rw [memberBytes, bytes_string]
    exact ⟨quote, _, rfl, by decide⟩
  simp only [bytes_object, List.cons_append, List.append_assoc, List.nil_append,
    List.cons.injEq, true_and] at heq
  exact separated_eq (by decide) (by decide) hhead (fun m hm => distinct_member (h m hm)) true heq

/-! ## Values -/

mutual

theorem Value.distinct : ∀ v : Value, Distinct Value.bytes v
  | .null => by
    intro w r s _ _ heq
    have hkind := kind_eq heq
    cases w with
    | null => exact ⟨rfl, List.append_cancel_left heq⟩
    | _ => cases hkind
  | .flag a => by
    intro w r s _ _ heq
    have hkind := kind_eq heq
    cases w with
    | flag b =>
      cases hkind
      exact ⟨rfl, List.append_cancel_left heq⟩
    | _ => cases hkind
  | .natural n => by
    intro w r s hr hs heq
    have hkind := kind_eq heq
    cases w with
    | natural m =>
      obtain ⟨rfl, hrest⟩ := natural_eq hr hs heq
      exact ⟨rfl, hrest⟩
    | _ => cases hkind
  | .string t => by
    intro w r s _ _ heq
    have hkind := kind_eq heq
    cases w with
    | string u =>
      obtain ⟨rfl, hrest⟩ := string_eq heq
      exact ⟨rfl, hrest⟩
    | _ => cases hkind
  | .list vs => by
    intro w r s _ _ heq
    have hkind := kind_eq heq
    cases w with
    | list ws =>
      obtain ⟨rfl, hrest⟩ := list_eq (distinct_elements vs) heq
      exact ⟨rfl, hrest⟩
    | _ => cases hkind
  | .object ms => by
    intro w r s _ _ heq
    have hkind := kind_eq heq
    cases w with
    | object ns =>
      obtain ⟨rfl, hrest⟩ := object_eq (distinct_members ms) heq
      exact ⟨rfl, hrest⟩
    | _ => cases hkind

theorem distinct_elements : ∀ vs : List Value, ∀ v ∈ vs, Distinct Value.bytes v
  | [] => fun _ hv => absurd hv List.not_mem_nil
  | v :: vs => List.forall_mem_cons.2 ⟨v.distinct, distinct_elements vs⟩

theorem distinct_members : ∀ ms : List (String × Value), ∀ m ∈ ms, Distinct Value.bytes m.2
  | [] => fun _ hm => absurd hm List.not_mem_nil
  | (_, v) :: ms => List.forall_mem_cons.2 ⟨v.distinct, distinct_members ms⟩

end

/-- A text is that of one value at most. -/
theorem Value.bytes_injective : Function.Injective Value.bytes := by
  intro v w h
  have heq : v.bytes ++ [] = w.bytes ++ [] := congrArg (· ++ []) h
  exact (v.distinct w [] [] halts_nil halts_nil heq).1

end PbxAgent.Json

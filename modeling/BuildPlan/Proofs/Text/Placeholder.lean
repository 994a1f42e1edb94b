import Mathlib.Data.List.Infix
import BuildPlan.Draft

namespace BuildPlan.Text.Placeholder

variable {value other text before rest : List Char} {c : Char}

theorem occurs_iff : occurs text = true ↔ hole <:+: text := by
  induction text with
  | nil => decide
  | cons c rest ih =>
    rw [occurs, Bool.or_eq_true, ih, List.isPrefixOf_iff_prefix, List.infix_cons_iff]

theorem prefix_parted {part : List Char} (apart : c ∉ part) (start : part <+: before ++ c :: rest) :
    part <+: before := by
  induction part generalizing before with
  | nil => exact List.nil_prefix
  | cons d part ih =>
    cases before with
    | nil => exact absurd (List.cons_prefix_cons.mp start).1 fun same => apart (same ▸ List.mem_cons_self)
    | cons first before =>
      obtain ⟨same, further⟩ := List.cons_prefix_cons.mp start
      exact List.cons_prefix_cons.mpr ⟨same, ih (fun mem => apart (List.mem_cons_of_mem _ mem)) further⟩

-- The hole lies on one side of a character that it does not have.
theorem occurs_parted (apart : c ∉ hole) :
    occurs (before ++ c :: rest) = true ↔ occurs before = true ∨ occurs rest = true := by
  induction before with
  | nil =>
    have elsewhere : ¬ hole <+: [] ++ c :: rest := fun start => by
      cases List.prefix_nil.mp (prefix_parted apart start)
    rw [← List.isPrefixOf_iff_prefix] at elsewhere
    rw [List.nil_append] at elsewhere
    simp [occurs, elsewhere]
  | cons d before ih =>
    have same : hole.isPrefixOf (d :: (before ++ c :: rest)) = true ↔ hole.isPrefixOf (d :: before) = true := by
      simp only [List.isPrefixOf_iff_prefix, ← List.cons_append]
      exact ⟨prefix_parted apart, fun start => start.trans (List.prefix_append _ _)⟩
    rw [List.cons_append, occurs, occurs, Bool.or_eq_true, Bool.or_eq_true, ih, same, or_assoc]

theorem infix_fillFrom (occurring : occurs text = true) : value <:+: fillFrom value 0 text := by
  induction text with
  | nil => cases occurring
  | cons c rest ih =>
    rw [fillFrom]
    split
    · exact (List.prefix_append _ _).isInfix
    next elsewhere =>
      rw [occurs, Bool.or_eq_true] at occurring
      exact (ih (occurring.resolve_left elsewhere)).trans (List.suffix_cons _ _).isInfix

-- A place begins with a brace, so nothing is put in before the first one.
theorem fillFrom_append (plain : '{' ∉ before) :
    fillFrom value 0 (before ++ rest) = before ++ fillFrom value 0 rest := by
  induction before with
  | nil => rfl
  | cons c before ih =>
    have elsewhere : ¬ hole.isPrefixOf (c :: (before ++ rest)) = true := by
      rw [List.isPrefixOf_iff_prefix, hole, List.cons_prefix_cons]
      rintro ⟨rfl, _⟩
      exact plain List.mem_cons_self
    rw [List.cons_append, fillFrom, if_neg elsewhere, ih fun mem => plain (List.mem_cons_of_mem _ mem)]
    rfl

theorem mem_fillFrom (skip : Nat) (mem : c ∈ fillFrom value skip text) :
    c ∈ value ∨ c ∈ fillFrom [] skip text := by
  fun_induction fillFrom value skip text with
  | case1 => cases mem
  | case2 skip _ rest ih => exact ih mem
  | case3 d rest found ih =>
    rw [fillFrom, if_pos found]
    exact (List.mem_append.mp mem).elim .inl ih
  | case4 d rest elsewhere ih =>
    rw [fillFrom, if_neg elsewhere]
    rcases List.mem_cons.mp mem with rfl | later
    · exact .inr List.mem_cons_self
    · exact (ih later).imp_right (List.mem_cons_of_mem _)

theorem length_fillFrom_le (shorter : value.length ≤ other.length) (skip : Nat) (text : List Char) :
    (fillFrom value skip text).length ≤ (fillFrom other skip text).length := by
  fun_induction fillFrom value skip text with
  | case1 => exact Nat.zero_le _
  | case2 skip _ rest ih => exact ih
  | case3 c rest found ih =>
    rw [fillFrom, if_pos found, List.length_append, List.length_append]
    exact Nat.add_le_add shorter ih
  | case4 c rest elsewhere ih =>
    rw [fillFrom, if_neg elsewhere, List.length_cons, List.length_cons]
    exact Nat.add_le_add_right ih 1

theorem length_fillFrom_lt (shorter : value.length < other.length) (occurring : occurs text = true) :
    (fillFrom value 0 text).length < (fillFrom other 0 text).length := by
  induction text with
  | nil => cases occurring
  | cons c rest ih =>
    rw [fillFrom, fillFrom]
    split
    · have behind := length_fillFrom_le (Nat.le_of_lt shorter) (hole.length - 1) rest
      rw [List.length_append, List.length_append]
      exact Nat.add_lt_add_of_lt_of_le shorter behind
    next elsewhere =>
      rw [occurs, Bool.or_eq_true] at occurring
      rw [List.length_cons, List.length_cons]
      exact Nat.add_lt_add_right (ih (occurring.resolve_left elsewhere)) 1

-- The filled text tells the value: first how long it is, and then, where the first place was, what it is.
theorem fillFrom_inj (occurring : occurs text = true) :
    fillFrom value 0 text = fillFrom other 0 text ↔ value = other := by
  refine ⟨fun same => ?_, fun same => same ▸ rfl⟩
  have length : value.length = other.length := by
    have equal := congrArg List.length same
    rcases Nat.lt_trichotomy value.length other.length with shorter | length | longer
    · exact absurd equal (Nat.ne_of_lt (length_fillFrom_lt shorter occurring))
    · exact length
    · exact absurd equal (Nat.ne_of_gt (length_fillFrom_lt longer occurring))
  induction text with
  | nil => cases occurring
  | cons c rest ih =>
    rw [fillFrom, fillFrom] at same
    split at same
    · exact (List.append_inj same length).1
    next elsewhere =>
      rw [occurs, Bool.or_eq_true] at occurring
      exact ih (occurring.resolve_left elsewhere) (List.cons.inj same).2

theorem fill_inj {text value other : String} (place : isIn text = true) :
    fill value text = fill other text ↔ value = other := by
  rw [fill, fill, String.ofList_inj, fillFrom_inj place, String.toList_inj]

end BuildPlan.Text.Placeholder

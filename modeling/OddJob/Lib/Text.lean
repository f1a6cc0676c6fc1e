import Mathlib.Data.List.Infix

/-! Global replacement of one word by another in a text over any alphabet:
leftmost occurrences first, without overlap, as string libraries define it. -/

namespace Text

variable {Symbol : Type} [DecidableEq Symbol]

/-- Structural scan: `skip` symbols of the text belong to an occurrence that
has already been replaced. -/
def replaceFrom (old new : List Symbol) : Nat → List Symbol → List Symbol
  | _, [] => []
  | skip + 1, _ :: rest => replaceFrom old new skip rest
  | 0, symbol :: rest =>
    if old <+: symbol :: rest then new ++ replaceFrom old new (old.length - 1) rest
    else symbol :: replaceFrom old new 0 rest

def replaceAll (old new text : List Symbol) : List Symbol :=
  replaceFrom old new 0 text

variable {old new text rest : List Symbol}

private theorem replaceFrom_drop (skip : Nat) (text : List Symbol) :
    replaceFrom old new skip text = replaceAll old new (text.drop skip) := by
  induction text generalizing skip with
  | nil => simp [replaceAll, replaceFrom]
  | cons symbol rest ih =>
    cases skip with
    | zero => rfl
    | succ skip => simpa [replaceFrom] using ih skip

@[simp] theorem replaceAll_nil : replaceAll old new [] = [] := rfl

/-- An occurrence at the front is replaced and the scan goes on behind it. -/
theorem replaceAll_append (nonempty : old ≠ []) :
    replaceAll old new (old ++ rest) = new ++ replaceAll old new rest := by
  cases old with
  | nil => exact absurd rfl nonempty
  | cons head tail =>
    have occurs : head :: tail <+: head :: (tail ++ rest) := List.prefix_append (head :: tail) rest
    simp only [List.cons_append, replaceAll, replaceFrom, occurs, ↓reduceIte, List.length_cons,
      Nat.add_sub_cancel]
    rw [replaceFrom_drop, List.drop_left]
    rfl

theorem replaceAll_cons {symbol : Symbol} (absent : ¬ old <+: symbol :: rest) :
    replaceAll old new (symbol :: rest) = symbol :: replaceAll old new rest := by
  simp only [replaceAll, replaceFrom, absent, ↓reduceIte]

theorem replaceAll_of_not_infix (absent : ¬ old <:+: text) : replaceAll old new text = text := by
  induction text with
  | nil => rfl
  | cons symbol rest ih =>
    have front : ¬ old <+: symbol :: rest := fun occurs => absent occurs.isInfix
    have later : ¬ old <:+: rest := fun occurs => absent (occurs.trans (List.suffix_cons _ _).isInfix)
    rw [replaceAll_cons front, ih later]

/-- Once the word occurs in a text, its replacement occurs in the result. -/
theorem infix_replaceAll (nonempty : old ≠ []) (occurs : old <:+: text) :
    new <:+: replaceAll old new text := by
  induction text with
  | nil => exact absurd (List.infix_nil.mp occurs) nonempty
  | cons head rest ih =>
    by_cases front : old <+: head :: rest
    · obtain ⟨tail, same⟩ := front
      rw [← same, replaceAll_append nonempty]
      exact (List.prefix_append _ _).isInfix
    · rw [replaceAll_cons front]
      rcases List.infix_cons_iff.mp occurs with start | later
      · exact absurd start front
      · exact (ih later).trans (List.suffix_cons _ _).isInfix

/-- A word without the first symbol of the mark can only start the result where it
started the text. -/
theorem prefix_of_prefix_replaceAll {fence : Symbol} {body word : List Symbol}
    (nonempty : old ≠ []) (clean : fence ∉ word)
    (start : word <+: replaceAll old (fence :: body) text) : word <+: text := by
  induction word generalizing text with
  | nil => exact List.nil_prefix
  | cons symbol word ih =>
    have different : symbol ≠ fence := fun same => clean (same ▸ List.mem_cons_self)
    cases text with
    | nil => exact start
    | cons head rest =>
      by_cases front : old <+: head :: rest
      · obtain ⟨tail, same⟩ := front
        rw [← same, replaceAll_append nonempty, List.cons_append] at start
        exact absurd (List.cons_prefix_cons.mp start).1 different
      · rw [replaceAll_cons front] at start
        obtain ⟨same, later⟩ := List.cons_prefix_cons.mp start
        exact List.cons_prefix_cons.mpr
          ⟨same, ih (fun member => clean (List.mem_cons_of_mem _ member)) later⟩

/-- Replacing a word by a fenced mark and the mark by the word restores every text in
which the mark does not begin. -/
theorem replaceAll_restore {fence : Symbol} {body : List Symbol} (nonempty : old ≠ [])
    (inner : fence ∉ body) (clean : ¬ fence :: body <:+: text) :
    replaceAll (fence :: (body ++ [fence])) old (replaceAll old (fence :: (body ++ [fence])) text) =
      text := by
  induction count : text.length using Nat.strong_induction_on generalizing text with
  | _ size ih =>
    cases text with
    | nil => rfl
    | cons symbol rest =>
      by_cases front : old <+: symbol :: rest
      · obtain ⟨tail, same⟩ := front
        have cleanTail : ¬ fence :: body <:+: tail := fun occurs =>
          clean (occurs.trans (same ▸ (List.suffix_append old tail).isInfix))
        have shorter : tail.length < size := by
          have positive := List.length_pos_iff.mpr nonempty
          have total := congrArg List.length same
          rw [count, List.length_append] at total
          omega
        rw [← same, replaceAll_append nonempty, replaceAll_append (List.cons_ne_nil _ _),
          ih _ shorter cleanTail rfl]
      · have notMark : ¬ fence :: (body ++ [fence]) <+:
            symbol :: replaceAll old (fence :: (body ++ [fence])) rest := by
          intro occurs
          obtain ⟨same, later⟩ := List.cons_prefix_cons.mp occurs
          have begins := prefix_of_prefix_replaceAll nonempty inner
            ((List.prefix_append body [fence]).trans later)
          exact clean (List.cons_prefix_cons.mpr ⟨same, begins⟩).isInfix
        have cleanRest : ¬ fence :: body <:+: rest := fun occurs =>
          clean (occurs.trans (List.suffix_cons _ _).isInfix)
        have shorter : rest.length < size := by simp [← count]
        rw [replaceAll_cons front, replaceAll_cons notMark, ih _ shorter cleanRest rfl]

end Text

import Mathlib.Data.List.TakeWhile
import MarketDag.Text.Character

/-!
# White space around a text

What is left of a line without the white space around it (`trimBoth_eq_iff`).
-/

namespace MarketDag

/-- Is there nothing but white space? -/
def Blank (cs : List Char) : Prop := ∀ c ∈ cs, isBlank c = true

/-- Is a line this one with white space around it? -/
def Trims (line inner : List Char) : Prop :=
  (∃ front back, line = front ++ (inner ++ back) ∧ Blank front ∧ Blank back) ∧
    (∀ c ∈ inner.head?, isBlank c = false) ∧ ∀ c ∈ inner.getLast?, isBlank c = false

theorem trimFront_append {front : List Char} (h : Blank front) (cs : List Char) :
    trimFront (front ++ cs) = trimFront cs := List.dropWhile_append_of_pos h

theorem trimFront_of_head {cs : List Char} (h : ∀ c ∈ cs.head?, isBlank c = false) :
    trimFront cs = cs := by
  cases cs with
  | nil => rfl
  | cons c cs => exact List.dropWhile_cons_of_neg (by simp [h c rfl])

theorem exists_trimFront (cs : List Char) : ∃ front, cs = front ++ trimFront cs ∧ Blank front ∧
    ∀ c ∈ (trimFront cs).head?, isBlank c = false := by
  refine ⟨cs.takeWhile isBlank, List.takeWhile_append_dropWhile.symm,
    fun c hc => List.mem_takeWhile_imp hc, fun c hc => ?_⟩
  have hhead := List.head?_dropWhile_not isBlank cs
  rw [trimFront] at hc
  rwa [hc] at hhead

theorem trims_trimBoth (line : List Char) : Trims line (trimBoth line) := by
  obtain ⟨front, hline, hfront, hhead⟩ := exists_trimFront line
  obtain ⟨back, hrest, hback, hlast⟩ := exists_trimFront (trimFront line).reverse
  have hsplit : trimFront line = trimBoth line ++ back.reverse := by
    rw [trimBoth, ← List.reverse_append, ← hrest, List.reverse_reverse]
  rw [hsplit] at hline hhead
  refine ⟨⟨front, back.reverse, hline, hfront, fun c hc => hback c (List.mem_reverse.mp hc)⟩,
    fun c hc => hhead c ?_, fun c hc => hlast c ?_⟩
  · rw [List.head?_append, Option.mem_def.mp hc]
    rfl
  · rwa [trimBoth, List.getLast?_reverse] at hc

theorem trimBoth_of_trims {line inner : List Char} (h : Trims line inner) :
    trimBoth line = inner := by
  obtain ⟨⟨front, back, rfl, hfront, hback⟩, hhead, hlast⟩ := h
  have hreverse : Blank back.reverse := fun c hc => hback c (List.mem_reverse.mp hc)
  rw [trimBoth, trimFront_append hfront]
  cases inner with
  | nil =>
    have hnone := trimFront_append hback []
    rw [List.append_nil] at hnone
    rw [List.nil_append, hnone]
    rfl
  | cons c cs =>
    rw [← List.head?_reverse] at hlast
    have hself : trimFront (c :: cs ++ back) = c :: cs ++ back := trimFront_of_head hhead
    rw [hself, List.reverse_append,
      trimFront_append hreverse, trimFront_of_head hlast, List.reverse_reverse]

theorem trimBoth_eq_iff {line inner : List Char} : trimBoth line = inner ↔ Trims line inner :=
  ⟨fun h => h ▸ trims_trimBoth line, trimBoth_of_trims⟩

theorem trimBoth_eq_nil {l : List Char} : trimBoth l = [] ↔ Blank l := by
  rw [trimBoth_eq_iff]
  constructor
  · rintro ⟨⟨front, back, rfl, hfront, hback⟩, -⟩
    intro c hc
    rcases List.mem_append.mp hc with hc | hc
    · exact hfront c hc
    · exact hback c hc
  · intro h
    exact ⟨⟨l, [], (List.append_nil l).symm, h, List.forall_mem_nil _⟩,
      fun _ hc => (nomatch hc), fun _ hc => (nomatch hc)⟩

/-- A line that begins and ends with characters that are no blanks is trimmed to itself. -/
theorem trimBoth_eq_self {a b : Char} (ha : isBlank a = false) (hb : isBlank b = false)
    (cs : List Char) : trimBoth (a :: cs ++ [b]) = a :: cs ++ [b] := by
  have hlast : (a :: cs ++ [b]).getLast? = some b := List.getLast?_concat
  refine trimBoth_of_trims ⟨⟨[], [], (List.append_nil _).symm, List.forall_mem_nil _,
    List.forall_mem_nil _⟩, ?_, ?_⟩
  · rintro c ⟨⟩
    exact ha
  · rw [hlast]
    rintro c ⟨⟩
    exact hb

end MarketDag

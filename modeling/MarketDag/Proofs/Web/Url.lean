import MarketDag.Web.Url

/-!
# What is a web address

An absolute address begins with the letter of a scheme (`Url.ofChars_of_not_alpha`), and behind the
scheme of names any text may follow that has no blanks (`Url.exists_ofChars_urn`).
-/

namespace MarketDag.Url

/-- A character that is no blank stays the first that counts. -/
theorem relevant_cons {c : Char} (hc : 0x20 < c.toNat) (cs : List Char) :
    ∃ rest, relevant (c :: cs) = c :: rest := by
  have houter : isOuter c = false := decide_eq_false (Nat.not_le.mpr hc)
  have hleft : isLeftOut c = false := by
    apply decide_eq_false
    rintro (rfl | rfl | rfl) <;> exact absurd hc (by decide)
  have hlast : ∃ front, ((c :: cs).reverse.dropWhile isOuter) = front ++ [c] := by
    rw [List.reverse_cons]
    induction cs.reverse with
    | nil => exact ⟨[], by simp [houter]⟩
    | cons a as ih =>
      rw [List.cons_append, List.dropWhile_cons]
      split
      · exact ih
      · exact ⟨a :: as, rfl⟩
  obtain ⟨front, hfront⟩ := hlast
  refine ⟨front.reverse.filter fun c => ¬ isLeftOut c, ?_⟩
  have hdrop : (c :: cs).dropWhile isOuter = c :: cs := by simp [houter]
  rw [relevant, hdrop, hfront, List.reverse_append, List.reverse_singleton, List.singleton_append,
    List.filter_cons, if_pos (by simp [hleft])]

/-- What begins with another character than a letter or a blank is no absolute address. -/
theorem ofChars_of_not_alpha {c : Char} (hc : 0x20 < c.toNat) (halpha : c.isAlpha = false)
    (cs : List Char) : ofChars (c :: cs) = .error .relative := by
  obtain ⟨rest, hrest⟩ := relevant_cons hc cs
  have hscheme : splitScheme? (c :: rest) = none := by
    unfold splitScheme?
    rw [List.takeWhile_cons]
    split
    · dsimp only [List.head?_cons]
      split
      · rename_i c' _ hhead _
        cases hhead
        rw [halpha]
        rfl
      · rfl
    · rfl
  rw [ofChars, hrest, hscheme]

theorem dropWhile_isOuter {cs : List Char} (h : ∀ c ∈ cs, 0x20 < c.toNat) :
    cs.dropWhile isOuter = cs := by
  cases cs with
  | nil => rfl
  | cons c cs =>
    have hc : isOuter c = false := decide_eq_false (Nat.not_le.mpr (h c List.mem_cons_self))
    rw [List.dropWhile_cons, hc]
    rfl

/-- A text without blanks counts as it is. -/
theorem relevant_eq_self {cs : List Char} (h : ∀ c ∈ cs, 0x20 < c.toNat) : relevant cs = cs := by
  have hreverse : cs.reverse.dropWhile isOuter = cs.reverse :=
    dropWhile_isOuter fun c hc => h c (List.mem_reverse.mp hc)
  rw [relevant, dropWhile_isOuter h, hreverse, List.reverse_reverse, List.filter_eq_self]
  intro c hc
  have hleft : ¬ (c = '\t' ∨ c = '\n' ∨ c = '\x0D') := by
    rintro (rfl | rfl | rfl) <;> exact absurd (h _ hc) (by decide)
  simpa [isLeftOut] using hleft

/-- A name is an absolute address, whatever characters it has. -/
theorem exists_ofChars_urn {cs : List Char} (h : ∀ c ∈ cs, 0x20 < c.toNat)
    (hslash : cs.head? ≠ some '/') : ∃ url, ofChars ("urn:".toList ++ cs) = .ok url := by
  have hfront : ∀ c ∈ "urn:".toList, 0x20 < c.toNat := by simp
  have hall : ∀ c ∈ "urn:".toList ++ cs, 0x20 < c.toNat := fun c hc =>
    (List.mem_append.mp hc).elim (hfront c) (h c)
  have hscheme : splitScheme? ("urn:".toList ++ cs) = some ("urn".toList, cs) := by
    simp [splitScheme?]
  have hfile : isFile "urn".toList = false := by decide
  have hspecial : isSpecial "urn".toList = false := by decide
  have hofChars : ofChars ("urn:".toList ++ cs) = readPlain "urn".toList cs := by
    rw [ofChars, relevant_eq_self hall, hscheme]
    simp only [hfile, hspecial, Bool.false_eq_true, if_false]
  rw [hofChars]
  unfold readPlain
  split
  · exact absurd rfl hslash
  · exact absurd rfl hslash
  · exact ⟨_, rfl⟩

end MarketDag.Url

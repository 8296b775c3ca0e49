import MarketDag.Proofs.Address.CidText
import MarketDag.Proofs.Except
import MarketDag.Proofs.Json.Faithful
import MarketDag.Proofs.Text.Blank
import MarketDag.Proofs.Text.Utf8
import MarketDag.Store.ImportReply

/-!
# Roots that replies name

A reply tells the identifier whose text it names (`parse_eq_ok`), whatever form this text has.  The
usual reply, one JSON object, names any text that it is written for (`names_written`).
-/

namespace MarketDag.ImportReply

/-! ## Names -/

/-- Does a reply's body name a root by a text, without a message about its pin? -/
def Names (body : List UInt8) (root : String) : Prop :=
  ∃ text line value, Utf8.decode? body = some text ∧ firstLine? text = some line ∧
    parseLine line = .ok value ∧ replyOf value = .ok (root, "")

/-- A reply tells the identifier that it names. -/
theorem parse_eq_ok {body : List UInt8} {status : Status} {path : String} {cid : Cid} :
    parse body status path = .ok cid ↔ ∃ root, Names body root ∧ Cid.ofText root = .ok cid := by
  unfold parse Names
  constructor
  · intro h
    split at h
    · cases h
    rename_i text htext
    split at h
    · cases h
    rename_i line hline
    obtain ⟨value, hvalue, h⟩ := bind_eq_ok.mp h
    obtain ⟨⟨root, pin⟩, hroot, h⟩ := bind_eq_ok.mp h
    dsimp only at h
    split at h
    · cases h
    rename_i hpin
    split at h
    · rename_i read hread
      cases h
      have hempty : pin = "" := by simpa using hpin
      subst hempty
      exact ⟨root, ⟨text, line, value, htext, hline, mapError_eq_ok.mp hvalue,
        mapError_eq_ok.mp hroot⟩, hread⟩
    · cases h
  · rintro ⟨root, ⟨text, line, value, htext, hline, hvalue, hroot⟩, hcid⟩
    rw [htext]
    dsimp only
    rw [hline]
    dsimp only
    refine bind_eq_ok.mpr ⟨value, mapError_eq_ok.mpr hvalue, ?_⟩
    refine bind_eq_ok.mpr ⟨(root, ""), mapError_eq_ok.mpr hroot, ?_⟩
    rw [if_neg (by simp), hcid]
    rfl

/-! ## The usual reply -/

/-- The tree of a reply that names a text. -/
def replyTree (root : String) : Ipld :=
  .map [("Root", .map [("Cid", .map [("/", .text root)]), ("PinErrorMsg", .text "")])]

/-- The bytes of a reply that names a text. -/
def written (root : String) : List UInt8 := Json.encoded (Json.write (replyTree root))

theorem newline_not_mem_escapeChar (c : Char) : '\n' ∉ Json.escapeChar c := by
  have hdigit : ∀ n < 16, '\n' ≠ Hex.digit n := by decide
  unfold Json.escapeChar
  iterate 7
    split
    · decide
  split
  · rename_i hcontrol
    have hhigh := hdigit (c.toNat / 16) (by omega)
    have hlow := hdigit (c.toNat % 16) (by omega)
    simp [hhigh, hlow]
  · rename_i hnewline _ _ _
    rw [List.mem_singleton]
    exact Ne.symm hnewline

theorem newline_not_mem_writeString (s : String) : '\n' ∉ Json.writeString s := by
  have hchars : '\n' ∉ s.toList.flatMap Json.escapeChar := by
    intro h
    obtain ⟨c, -, hc⟩ := List.mem_flatMap.mp h
    exact newline_not_mem_escapeChar c hc
  simp [Json.writeString, hchars]

/-- A line without an end inside is the first one of its text. -/
theorem firstLine?_ofList {a b : Char} (ha : isBlank a = false) (hb : isBlank b = false)
    {cs : List Char} (h : '\n' ∉ a :: cs ++ [b]) :
    firstLine? (String.ofList (a :: cs ++ [b])) = some (a :: cs ++ [b]) := by
  have hsplit : (a :: cs ++ [b]).splitOn '\n' = [a :: cs ++ [b]] := by
    refine List.splitOnP_eq_singleton fun c hc => beq_false_of_ne ?_
    rintro rfl
    exact h hc
  rw [firstLine?, String.toList_ofList, hsplit, List.map_singleton, trimBoth_eq_self ha hb]
  rfl

/-- A line that is written for a tree has the tree's value. -/
theorem parseLine_write {h : Nat} {t : Ipld} (ht : t.LinkedWithin h) (hdepth : h < Json.maxDepth)
    (hwhole : (Json.ofTree t).isWhole = true) :
    parseLine (Json.write t) = .ok (Json.ofTree t) := by
  have hline : (Json.write t).flatMap Utf8.encodeChar = Json.encoded (Json.write t) := rfl
  rw [parseLine, hline, Json.parse_write ht hdepth]
  exact if_pos ⟨hwhole, rfl⟩

/-- A reply that is written for a text names it. -/
theorem names_written (root : String) : Names (written root) root := by
  obtain ⟨cs, hcs⟩ : ∃ cs, Json.write (replyTree root) = '\x7b' :: cs ++ ['\x7d'] := ⟨_, rfl⟩
  have hline : '\n' ∉ Json.write (replyTree root) := by
    simp [replyTree, Json.write, Json.writeEntries, newline_not_mem_writeString]
  have hlinked : (replyTree root).LinkedWithin 4 := by
    simp [replyTree, Ipld.LinkedWithin]
  refine ⟨String.ofList (Json.write (replyTree root)), Json.write (replyTree root),
    Json.ofTree (replyTree root), ?_, ?_, parseLine_write hlinked (by decide) rfl, rfl⟩
  · rw [written, ← Json.encode_ofList]
    exact Utf8.decode?_encode _
  · rw [hcs] at hline ⊢
    exact firstLine?_ofList (by decide) (by decide) hline

end MarketDag.ImportReply

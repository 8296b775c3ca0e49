import MarketDag.Proofs.Except
import MarketDag.Web.Url

/-!
# Addresses under a base

A segment of a path holds no slash, so that a path says where its segments end.  An address with a
path from a root becomes a base, whose path ends with a slash, and an address under it has the
base's path and then its own segments (`Url.join_asBase`).  No address stands under one with another
path (`Url.join_asBase_of_plain`).
-/

namespace MarketDag

/-! ## Texts without slashes -/

/-- A digit in capitals is no slash. -/
theorem Hex.toUpper_digit_ne_slash {n : Nat} (h : n < 16) : (Hex.digit n).toUpper ≠ '/' := by
  revert n
  decide

theorem Percent.slash_not_mem_encodeByte (b : UInt8) : '/' ∉ encodeByte b := by
  have hb := b.toNat_lt
  have hhigh : (Hex.digit (b.toNat / 16)).toUpper ≠ '/' := Hex.toUpper_digit_ne_slash (by omega)
  have hlow : (Hex.digit (b.toNat % 16)).toUpper ≠ '/' := Hex.toUpper_digit_ne_slash (by omega)
  simp [encodeByte, hhigh.symm, hlow.symm]

/-- Encoding a text brings no slash into it. -/
theorem Percent.slash_not_mem_encode {cs : List Char} (h : '/' ∉ cs) (set : Set) :
    '/' ∉ encode set cs := by
  intro hmem
  obtain ⟨c, hc, hmem⟩ := List.mem_flatMap.mp hmem
  split at hmem
  · obtain ⟨b, -, hb⟩ := List.mem_flatMap.mp hmem
    exact slash_not_mem_encodeByte b hb
  · rw [List.mem_singleton] at hmem
    exact h (hmem ▸ hc)

/-- The pieces of a list are without what it is split at. -/
theorem not_of_mem_splitOnP {α : Type} {p : α → Bool} {xs piece : List α}
    (h : piece ∈ xs.splitOnP p) : ∀ x ∈ piece, p x = false := by
  induction xs generalizing piece with
  | nil =>
    rw [List.splitOnP_nil, List.mem_singleton] at h
    subst h
    exact List.forall_mem_nil _
  | cons x xs ih =>
    rw [List.splitOnP_cons_eq_if_modifyHead] at h
    split at h
    · rcases List.mem_cons.mp h with rfl | h
      · exact List.forall_mem_nil _
      · exact ih h
    · rename_i hx
      obtain ⟨head, tail, hsplit⟩ := List.exists_cons_of_ne_nil (List.splitOnP_ne_nil p xs)
      rw [hsplit, List.modifyHead_cons] at h
      rcases List.mem_cons.mp h with rfl | h
      · exact List.forall_mem_cons.mpr ⟨by simpa using hx, ih (hsplit ▸ List.mem_cons_self)⟩
      · exact ih (hsplit ▸ List.mem_cons_of_mem _ h)

namespace Url

/-! ## Segments -/

/-- Is no slash in any segment? -/
def SlashFree (segments : List (List Char)) : Prop := ∀ s ∈ segments, '/' ∉ s

theorem slashFree_cons {s : List Char} {ss : List (List Char)} :
    SlashFree (s :: ss) ↔ '/' ∉ s ∧ SlashFree ss := List.forall_mem_cons

theorem slashFree_nil : SlashFree [] := List.forall_mem_nil _

theorem mem_of_mem_dropSegment {s : List Char} {ss : List (List Char)} (h : s ∈ dropSegment ss) :
    s ∈ ss := by
  cases ss with
  | nil => exact h
  | cons t ss =>
    rw [dropSegment] at h
    split at h
    · exact h
    · exact List.mem_cons_of_mem _ h

theorem slash_not_mem_withColon {segment : List Char} (h : '/' ∉ segment) :
    '/' ∉ withColon segment := by
  cases segment with
  | nil => exact List.not_mem_nil
  | cons c cs =>
    have hc : '/' ≠ c := fun hc => h (hc ▸ List.mem_cons_self)
    simp [withColon, hc]

/-- A segment is added encoded, as the letter of a drive, or as an empty one at the end. -/
theorem mem_addSegment {file last : Bool} {s segment : List Char} {done : List (List Char)}
    (h : s ∈ addSegment file last done segment) :
    s ∈ done ∨ s = [] ∨ s = withColon segment ∨ s = Percent.encode Percent.inPath segment := by
  -- one dot or two add no segment, but the last one leaves an empty segment
  have hclosed {ss : List (List Char)} (hsub : ∀ t ∈ ss, t ∈ done)
      (hss : s ∈ if last then [] :: ss else ss) : s ∈ done ∨ s = [] := by
    split at hss
    · exact (List.mem_cons.mp hss).elim .inr fun hs => .inl (hsub s hs)
    · exact .inl (hsub s hss)
  rw [← or_assoc]
  unfold addSegment at h
  dsimp only at h
  split at h
  · exact .inl (hclosed (fun t => mem_of_mem_dropSegment) h)
  split at h
  · exact .inl (hclosed (fun t ht => ht) h)
  split at h
  · exact (List.mem_cons.mp h).elim (fun hs => .inr (.inl hs)) fun hs => .inl (.inl hs)
  split at h
  · exact .inl (hclosed (fun t ht => ht) h)
  · exact (List.mem_cons.mp h).elim (fun hs => .inr (.inr hs)) fun hs => .inl (.inl hs)

theorem SlashFree.addSegment {done : List (List Char)} {segment : List Char}
    (hdone : SlashFree done) (h : '/' ∉ segment) (file last : Bool) :
    SlashFree (addSegment file last done segment) := by
  intro s hs
  rcases mem_addSegment hs with hs | rfl | rfl | rfl
  · exact hdone s hs
  · exact List.not_mem_nil
  · exact slash_not_mem_withColon h
  · exact Percent.slash_not_mem_encode h _

theorem SlashFree.addSegments {done segments : List (List Char)} (hdone : SlashFree done)
    (h : SlashFree segments) (file : Bool) : SlashFree (addSegments file done segments) := by
  induction segments generalizing done with
  | nil => exact hdone
  | cons s segments ih =>
    obtain ⟨hs, hrest⟩ := slashFree_cons.mp h
    cases segments with
    | nil => exact hdone.addSegment hs file true
    | cons t segments => exact ih (hdone.addSegment hs file false) hrest

/-- The segments of a text are without slashes. -/
theorem slashFree_readSegments (scheme cs : List Char) : SlashFree (readSegments scheme cs) := by
  intro s hs
  rw [readSegments, appendSegments, List.mem_reverse] at hs
  refine slashFree_nil.addSegments (fun piece hpiece hslash => ?_) _ s hs
  have hnot := not_of_mem_splitOnP hpiece '/' hslash
  simp [isSlash] at hnot

/-! ## Addresses that are asked over a network -/

theorem isSpecial_of_isHttp {scheme : List Char} (h : isHttp scheme = true) :
    isSpecial scheme = true := by
  rcases of_decide_eq_true h with rfl | rfl <;> decide

/-- Is an address one of HTTP, without a name and a password of its own, which would be sent in
place of a key? -/
def IsWeb (url : Url) : Prop :=
  (url.scheme = "http".toList ∨ url.scheme = "https".toList) ∧
    url.authority.any fun a => a.username.isEmpty && a.password.isEmpty

instance : DecidablePred IsWeb := fun _ => instDecidableAnd

namespace IsWeb

variable {url : Url}

theorem isHttp (h : url.IsWeb) : Url.isHttp url.scheme = true := decide_eq_true h.1

theorem isSpecial (h : url.IsWeb) : Url.isSpecial url.scheme = true :=
  isSpecial_of_isHttp h.isHttp

end IsWeb

/-- The path of an address without the slash at its end. -/
def basePath (url : Url) : List Char :=
  if url.path.toChars.getLast? = some '/' then url.path.toChars.dropLast else url.path.toChars

/-! ## Reading -/

/-- Is the path of an address one of segments from a root? -/
def IsRooted (url : Url) : Prop := ∃ segments, url.path = .rooted segments

theorem isRooted_or_plain (url : Url) : url.IsRooted ∨ ∃ text, url.path = .plain text := by
  unfold IsRooted
  cases url.path with
  | rooted segments => exact .inl ⟨segments, rfl⟩
  | plain text => exact .inr ⟨text, rfl⟩

theorem not_isRooted_iff {url : Url} : ¬ url.IsRooted ↔ ∃ text, url.path = .plain text := by
  constructor
  · exact (isRooted_or_plain url).resolve_left
  · rintro ⟨text, htext⟩ ⟨segments, hsegments⟩
    cases htext.symm.trans hsegments

/-- The path of a text has segments without slashes. -/
theorem exists_readPath (scheme cs : List Char) :
    ∃ segments, readPath scheme cs = .rooted segments ∧ SlashFree segments := by
  cases cs with
  | nil =>
    refine ⟨_, rfl, ?_⟩
    split
    · exact slashFree_cons.mpr ⟨List.not_mem_nil, slashFree_nil⟩
    · exact slashFree_nil
  | cons c cs => exact ⟨_, rfl, slashFree_readSegments _ _⟩

theorem readFile_eq_ok {cs : List Char} {url : Url} (h : readFile cs = .ok url) :
    ∃ authority text, url = fileOn authority text := by
  unfold readFile at h
  split at h
  · split at h
    · dsimp only at h
      split at h
      · cases h
        exact ⟨_, _, rfl⟩
      · obtain ⟨authority, -, h⟩ := bind_eq_ok.mp h
        cases h
        exact ⟨_, _, rfl⟩
    · cases h
      exact ⟨_, _, rfl⟩
  · cases h
    exact ⟨_, _, rfl⟩

theorem readAfterSlashes_eq_ok {scheme cs : List Char} {url : Url}
    (h : readAfterSlashes scheme cs = .ok url) :
    url.scheme = scheme ∧ ∃ text, url.path = readPath scheme text := by
  obtain ⟨⟨authority, unread⟩, -, h⟩ := bind_eq_ok.mp h
  cases h
  exact ⟨rfl, _, rfl⟩

/-- The path of an address has segments without slashes, or, if the scheme has no special rules and
no slash stands behind its colon, is a text without a root. -/
theorem path_of_ofChars {cs : List Char} {url : Url} (h : ofChars cs = .ok url) :
    ∃ rest, splitScheme? (relevant cs) = some (url.scheme, rest) ∧
      (((isSpecial url.scheme = true ∨ rest.head? = some '/') ∧
          ∃ segments, url.path = .rooted segments ∧ SlashFree segments) ∨
        (isSpecial url.scheme = false ∧ rest.head? ≠ some '/' ∧
          ∃ text, url.path = .plain text)) := by
  have hrooted {scheme text : List Char} (h : url.path = readPath scheme text) :
      ∃ segments, url.path = .rooted segments ∧ SlashFree segments := by
    rw [h]
    exact exists_readPath scheme text
  unfold ofChars at h
  split at h
  · cases h
  rename_i scheme rest hscheme
  rw [hscheme]
  split at h
  · rename_i hfile
    -- special schemes have a root even where no slash stands
    obtain ⟨authority, text, rfl⟩ := readFile_eq_ok h
    obtain rfl : scheme = "file".toList := of_decide_eq_true hfile
    exact ⟨rest, rfl, .inl ⟨.inl rfl, hrooted rfl⟩⟩
  split at h
  · rename_i hspecial
    obtain ⟨rfl, text, hpath⟩ := readAfterSlashes_eq_ok h
    exact ⟨rest, rfl, .inl ⟨.inl hspecial, hrooted hpath⟩⟩
  · rename_i hspecial
    unfold readPlain at h
    split at h
    · obtain ⟨rfl, text, hpath⟩ := readAfterSlashes_eq_ok h
      exact ⟨_, rfl, .inl ⟨.inr rfl, hrooted hpath⟩⟩
    · cases h
      exact ⟨_, rfl, .inl ⟨.inr rfl, _, rfl, slashFree_readSegments _ _⟩⟩
    · -- without a slash behind the colon the path is a text
      rename_i hslash
      cases h
      refine ⟨_, rfl, .inr ⟨eq_false_of_ne_true hspecial, fun hhead => ?_, _, rfl⟩⟩
      obtain ⟨cs, rfl⟩ := List.head?_eq_some_iff.mp hhead
      exact hslash cs rfl

theorem slashFree_of_ofChars {cs : List Char} {url : Url} {segments : List (List Char)}
    (h : ofChars cs = .ok url) (hpath : url.path = .rooted segments) : SlashFree segments := by
  obtain ⟨rest, -, ⟨-, read, hread, hfree⟩ | ⟨-, -, text, hread⟩⟩ := path_of_ofChars h
  · cases hread.symm.trans hpath
    exact hfree
  · cases hread.symm.trans hpath

/-- An address has a path from a root exactly if its scheme has special rules or a slash stands
behind the colon of its scheme. -/
theorem isRooted_iff {cs : List Char} {url : Url} (h : ofChars cs = .ok url) :
    url.IsRooted ↔ isSpecial url.scheme = true ∨
      ∃ rest, splitScheme? (relevant cs) = some (url.scheme, '/' :: rest) := by
  obtain ⟨rest, hscheme, ⟨hfront, segments, hread, -⟩ | ⟨hplain, hslash, htext⟩⟩ :=
    path_of_ofChars h
  · refine iff_of_true ⟨segments, hread⟩ (hfront.imp_right fun hslash => ?_)
    obtain ⟨rest, rfl⟩ := List.head?_eq_some_iff.mp hslash
    exact ⟨rest, hscheme⟩
  · refine iff_of_false (not_isRooted_iff.mpr htext) ?_
    rintro (hspecial | ⟨rest, hrest⟩)
    · rw [hplain] at hspecial
      cases hspecial
    · rw [hscheme] at hrest
      cases hrest
      exact hslash rfl

theorem IsWeb.isRooted {cs : List Char} {url : Url} (hweb : url.IsWeb) (h : ofChars cs = .ok url) :
    url.IsRooted := (isRooted_iff h).mpr (.inl hweb.isSpecial)

/-! ## Bases -/

theorem toChars_append (front back : List (List Char)) :
    (UrlPath.rooted (front ++ back)).toChars =
      (UrlPath.rooted front).toChars ++ (UrlPath.rooted back).toChars := List.flatMap_append

theorem toChars_concat (front : List (List Char)) (last : List Char) :
    (UrlPath.rooted (front ++ [last])).toChars =
      (UrlPath.rooted front).toChars ++ '/' :: last := by
  rw [toChars_append]
  simp [UrlPath.toChars]

/-- A path ends with a slash when its last segment is empty. -/
theorem getLast_toChars (front : List (List Char)) {last : List Char} (h : '/' ∉ last) :
    (UrlPath.rooted (front ++ [last])).toChars.getLast? = some '/' ↔ last = [] := by
  rw [toChars_concat, List.getLast?_append_of_ne_nil _ (List.cons_ne_nil _ _)]
  constructor
  · intro hslash
    by_contra hne
    rw [List.getLast?_cons_of_ne_nil hne] at hslash
    exact h (List.mem_of_getLast? hslash)
  · rintro rfl
    rfl

/-- The scheme and the authority of an address are those of its base. -/
theorem asBase_eq (url : Url) : url.asBase = { url with path := url.asBase.path } := by
  unfold asBase
  split
  · rfl
  · split <;> rfl

@[simp] theorem asBase_scheme (url : Url) : url.asBase.scheme = url.scheme := by
  rw [asBase_eq]

@[simp] theorem asBase_authority (url : Url) : url.asBase.authority = url.authority := by
  rw [asBase_eq]

/-- The path of a base has the segments of the address and an empty one at the end. -/
theorem asBase_path {url : Url} {segments : List (List Char)} (hpath : url.path = .rooted segments)
    (hfree : SlashFree segments) :
    ∃ front, url.asBase.path = .rooted (front ++ [[]]) ∧
      (UrlPath.rooted front).toChars = url.basePath := by
  rcases List.eq_nil_or_concat' segments with rfl | ⟨front, last, rfl⟩
  · refine ⟨[], ?_, ?_⟩
    · rw [asBase, hpath]
      rfl
    · rw [basePath, hpath]
      rfl
  have hlast : '/' ∉ last := hfree last (by simp)
  -- a slash is put behind the path unless there is one already
  by_cases hempty : last = []
  · subst hempty
    have hslash := (getLast_toChars front hlast).mpr rfl
    refine ⟨front, ?_, ?_⟩
    · rw [asBase, hpath, if_pos hslash, hpath]
    · rw [basePath, hpath, if_pos hslash, toChars_concat, List.dropLast_concat]
  · have hslash := mt (getLast_toChars front hlast).mp hempty
    refine ⟨front ++ [last], ?_, ?_⟩
    · rw [asBase, hpath, if_neg hslash]
    · rw [basePath, hpath, if_neg hslash]

/-- The path of a base is that of the address, with a slash behind it if there is none. -/
theorem basePath_eq (url : Url) : url.path.toChars = url.basePath ∨
    url.path.toChars = url.basePath ++ ['/'] := by
  unfold basePath
  split
  · rename_i hslash
    exact .inr (List.dropLast_append_getLast? _ hslash).symm
  · exact .inl rfl

/-- The path of a base without a root ends with a slash as well, unless the path of the address is
empty: then the slash is encoded. -/
theorem asBase_path_of_plain {url : Url} {text : List Char} (h : url.path = .plain text) :
    url.asBase.path = .plain (if text = [] then "%2F".toList else url.basePath ++ ['/']) := by
  have htext : url.path.toChars = text := by
    rw [h]
    rfl
  unfold asBase basePath
  rw [htext]
  split
  · rename_i hslash
    have hne : text ≠ [] := by
      rintro rfl
      cases hslash
    rw [h, if_neg hne, List.dropLast_append_getLast? _ hslash]
  · rw [h]
    cases text with
    | nil => rfl
    | cons c cs => rfl

/-! ## Addresses under a base -/

/-- Does a segment stand for itself in a path? -/
def IsLiteral (segment : List Char) : Prop :=
  isDot segment = false ∧ isDoubleDot segment = false ∧ isDrive segment = false ∧
    segment ≠ [] ∧ Percent.encode Percent.inPath segment = segment

instance : DecidablePred IsLiteral := fun _ => instDecidableAnd

theorem addSegment_of_literal {segment : List Char} (h : IsLiteral segment) (file last : Bool)
    (done : List (List Char)) : addSegment file last done segment = segment :: done := by
  obtain ⟨hdot, hdouble, hdrive, hne, hencode⟩ := h
  simp [addSegment, hdot, hdouble, hdrive, hne, hencode]

theorem appendSegments_of_literal {segments : List (List Char)} (h : ∀ s ∈ segments, IsLiteral s)
    (scheme : List Char) (front : List (List Char)) :
    appendSegments scheme front segments = front ++ segments := by
  have hadd (done : List (List Char)) : addSegments (isFile scheme) done segments =
      segments.reverse ++ done := by
    induction segments generalizing done with
    | nil => rfl
    | cons s segments ih =>
      obtain ⟨hs, hrest⟩ := List.forall_mem_cons.mp h
      cases segments with
      | nil => exact addSegment_of_literal hs _ true done
      | cons t segments =>
        rw [addSegments, addSegment_of_literal hs, ih hrest]
        · simp
        · exact List.cons_ne_nil _ _
  rw [appendSegments, hadd, List.reverse_append, List.reverse_reverse, List.reverse_reverse]

/-- Segments that stand for themselves lead from a base to its path and theirs. -/
theorem join_asBase {cs : List Char} {url : Url} (h : ofChars cs = .ok url)
    (hrooted : url.IsRooted) : ∃ front, url.asBase.path = .rooted (front ++ [[]]) ∧
      (UrlPath.rooted front).toChars = url.basePath ∧
      ∀ segments, (∀ s ∈ segments, IsLiteral s) → url.asBase.join segments =
        .ok { url with path := .rooted (front ++ segments), query := none, fragment := none } := by
  obtain ⟨read, hread⟩ := hrooted
  obtain ⟨front, hpath, hbase⟩ := asBase_path hread (slashFree_of_ofChars h hread)
  refine ⟨front, hpath, hbase, fun segments hsegments => ?_⟩
  rw [join, hpath]
  dsimp only
  rw [List.dropLast_concat, appendSegments_of_literal hsegments, asBase_eq]

/-- Nothing stands under an address without a root. -/
theorem join_asBase_of_plain {url : Url} (h : ¬ url.IsRooted) (segments : List (List Char)) :
    url.asBase.join segments = .error .noBase := by
  obtain ⟨text, htext⟩ := not_isRooted_iff.mp h
  rw [join, asBase_path_of_plain htext]

/-- Segments that stand for themselves lead from a web address to one with its path and theirs. -/
theorem toChars_join {cs : List Char} {url : Url} (h : ofChars cs = .ok url) (hweb : url.IsWeb)
    {segments : List (List Char)} (hsegments : ∀ s ∈ segments, IsLiteral s) :
    ∃ target, url.asBase.join segments = .ok target ∧ isHttp target.scheme = true ∧
      target.path.toChars = url.basePath ++ (UrlPath.rooted segments).toChars := by
  obtain ⟨front, -, hbase, hjoin⟩ := join_asBase h (hweb.isRooted h)
  exact ⟨_, hjoin segments hsegments, hweb.isHttp, by rw [toChars_append, hbase]⟩

end Url

end MarketDag

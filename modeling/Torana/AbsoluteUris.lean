import Torana.Uris

/-!
Where an absolute URI is cut: the authority ends at the first delimiter, whatever is in it,
and the target is what stands between that and the fragment. A text that does not begin with
a delimiter is no target behind an authority but a part of it.
-/
namespace Torana.AbsoluteUris
open Uris (readAuthority isHostChar isQueryChar isCovered)

/-! ## Cutting -/

def isDelimiter (c : Char) : Bool := "/?#".toList.contains c

def authorityText (rest : List Char) : List Char := rest.takeWhile fun c => !isDelimiter c

/-- The path and the query; an empty one is `/`. -/
def targetText (rest : List Char) : List Char :=
  let target := (rest.dropWhile fun c => !isDelimiter c).takeWhile (· ≠ '#')
  if target = [] then ['/'] else target

/-- The text begins with a path or a query. -/
def startsTarget (s : List Char) : Bool := s.head? = some '/' || s.head? = some '?'

theorem startsTarget_cons {s : List Char} (starts : startsTarget s = true) :
    ∃ c rest, s = c :: rest ∧ isDelimiter c = true ∧ c ≠ '#' := by
  rw [startsTarget, Bool.or_eq_true, decide_eq_true_eq, decide_eq_true_eq] at starts
  rcases starts with path | query
  · exact ⟨'/', s.tail, List.eq_cons_of_mem_head? path, by decide, by decide⟩
  · exact ⟨'?', s.tail, List.eq_cons_of_mem_head? query, by decide, by decide⟩

/-- The text has no delimiter in it. -/
def Plain (s : List Char) : Prop := ∀ c ∈ s, isDelimiter c = false

theorem plain_all {s : List Char} (plain : Plain s) : ∀ c ∈ s, (!isDelimiter c) = true := by
  intro c member
  rw [plain c member]
  rfl

theorem authorityText_made {authority target : List Char} (plain : Plain authority)
    (starts : startsTarget target = true) : authorityText (authority ++ target) = authority := by
  obtain ⟨c, rest, rfl, delimiter, -⟩ := startsTarget_cons starts
  rw [authorityText, List.takeWhile_append_of_pos (plain_all plain), List.takeWhile_cons_of_neg (by simp [delimiter]),
    List.append_nil]

theorem targetText_made {authority target : List Char} (plain : Plain authority)
    (starts : startsTarget target = true) (whole : '#' ∉ target) : targetText (authority ++ target) = target := by
  have unfragmented : target.takeWhile (· ≠ '#') = target := by
    refine List.takeWhile_eq_self_iff.mpr fun c member => ?_
    rw [decide_eq_true_eq]
    rintro rfl
    exact whole member
  obtain ⟨c, rest, rfl, delimiter, -⟩ := startsTarget_cons starts
  rw [targetText, List.dropWhile_append_of_pos (plain_all plain), List.dropWhile_cons_of_neg (by simp [delimiter])]
  simp only [unfragmented, reduceCtorEq, if_false]

/-- What is no delimiter goes on with the authority. -/
theorem authorityText_absorbs {authority : List Char} (plain : Plain authority) {c : Char}
    (absorbed : isDelimiter c = false) (rest : List Char) :
    authorityText (authority ++ c :: rest) = authority ++ c :: authorityText rest := by
  rw [authorityText, List.takeWhile_append_of_pos (plain_all plain), List.takeWhile_cons_of_pos (by simp [absorbed]),
    authorityText]

/-- The authority stands alone exactly in front of a delimiter. -/
theorem authorityText_iff {authority target : List Char} (plain : Plain authority) (filled : target ≠ [])
    (whole : '#' ∉ target) : authorityText (authority ++ target) = authority ↔ startsTarget target = true := by
  refine ⟨fun alone => ?_, authorityText_made plain⟩
  cases target with
  | nil => exact absurd rfl filled
  | cons c rest =>
    cases delimiter : isDelimiter c with
    | false =>
      rw [authorityText_absorbs plain delimiter, List.append_right_eq_self] at alone
      cases alone
    | true =>
      have listed : c ∈ "/?#".toList := List.contains_iff_mem.mp delimiter
      have other : c ≠ '#' := fun same => whole (same ▸ List.mem_cons_self)
      simp only [startsTarget, List.head?_cons, Option.some.injEq, Bool.or_eq_true, decide_eq_true_eq]
      simpa [other] using listed

/-! ## Parsers -/

/-- A parser that cuts the URIs of the scheme `http` so. -/
def Cuts (parseUri : String → Except String Http.Uri) : Prop :=
  ∀ rest uri, parseUri ("http://" ++ rest) = .ok uri → uri = ⟨some "http",
    some (String.ofList (authorityText rest.toList)), some (String.ofList (targetText rest.toList))⟩

/-- It accepts every legal authority with one of its targets behind it where the text is covered. The
    path and the query of a URI are never empty, and the fragment is no part of them. -/
structure Reads (parseUri : String → Except String Http.Uri) (isTarget covered : String → Prop) : Prop where
  cuts : Cuts parseUri
  accepts : ∀ authority target : String, (readAuthority authority.toList).isSome → isTarget target →
    startsTarget target.toList → covered ("http://" ++ authority ++ target) →
    ∃ uri, parseUri ("http://" ++ authority ++ target) = .ok uri
  root : isTarget "/"
  bounded : ∀ target, isTarget target → target.toList ≠ [] ∧ '#' ∉ target.toList

theorem authority_plain {authority : List Char} (legal : (readAuthority authority).isSome) : Plain authority := by
  intro c member
  rw [isDelimiter, ← Bool.not_eq_true, List.contains_iff_mem]
  exact (Uris.authority_visible legal c member).2.2

/-! ## One of them -/

def isTargetChar (c : Char) : Bool := isQueryChar c || c = '%'

/-- Text in the characters of a path and a query, which the asterisk is too. -/
def IsTarget (target : String) : Prop := target.toList ≠ [] ∧ target.toList.all isTargetChar = true

/-- A parser that looks at characters alone. -/
def parse (text : String) : Except String Http.Uri :=
  match Text.stripPrefix "http://".toList text.toList with
  | none => .error "invalid format"
  | some rest =>
    if !isCovered text then .error "uri not covered"
    else if authorityText rest = [] || !(authorityText rest).all (fun c => isHostChar c || c = '@') then
      .error "invalid authority"
    else if !(targetText rest).all isTargetChar then .error "invalid uri character"
    else .ok ⟨some "http", some (String.ofList (authorityText rest)), some (String.ofList (targetText rest))⟩

theorem cuts_parse : Cuts parse := by
  intro rest uri parsed
  unfold parse at parsed
  rw [String.toList_append, Uris.stripPrefix_append] at parsed
  simp only at parsed
  split at parsed
  · cases parsed
  split at parsed
  · cases parsed
  · split at parsed
    · cases parsed
    · cases parsed
      rfl

theorem authority_legal {authority : List Char} (legal : (readAuthority authority).isSome) :
    authority ≠ [] ∧ authority.all (fun c => isHostChar c || c = '@') = true := by
  obtain ⟨_, read⟩ := Option.isSome_iff_exists.mp legal
  refine ⟨?_, ?_⟩
  · rintro rfl
    exact absurd legal (by decide)
  · refine List.all_eq_true.mpr fun c member => ?_
    rw [Bool.or_eq_true, decide_eq_true_eq]
    exact (Uris.readAuthority_host read).2 c member

theorem reads_parse : Reads parse IsTarget (isCovered · = true) where
  cuts := cuts_parse
  accepts := by
    intro authority target legal listed starts covered
    have plain := authority_plain legal
    have whole : '#' ∉ target.toList := fun member => absurd (List.all_eq_true.mp listed.2 _ member) (by decide)
    obtain ⟨filled, chars⟩ := authority_legal legal
    have front : authorityText (authority.toList ++ target.toList) = authority.toList := authorityText_made plain starts
    have back : targetText (authority.toList ++ target.toList) = target.toList := targetText_made plain starts whole
    unfold parse
    rw [covered, String.append_assoc, String.toList_append, Uris.stripPrefix_append, String.toList_append]
    simp only [front, back, chars, listed.2, filled, decide_false, Bool.not_true, Bool.or_false, Bool.false_eq_true,
      if_false]
    exact ⟨_, rfl⟩
  root := by
    refine ⟨?_, ?_⟩ <;> decide
  bounded := by
    intro target listed
    refine ⟨listed.1, ?_⟩
    intro member
    exact absurd (List.all_eq_true.mp listed.2 _ member) (by decide)

end Torana.AbsoluteUris

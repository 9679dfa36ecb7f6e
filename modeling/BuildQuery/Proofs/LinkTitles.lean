import BuildQuery.Report.Line

/-!
# BuildQuery — descriptions that are links

A description that begins with a link is shown by the title of the link, which ends where the mark behind
it stands for the first time: it is the shortest text between the start of a link and a mark. All other
descriptions are shown as they are. The shortest title has no mark in it, so it is no link itself, and a
shown description is shown as it is.

Main results:

* `Text.exists_before`, `Text.before?_sound` — what stands before the first mark.
* `plainDescription_cases` — the title of a link, or the description itself.
* `shortest_title` — which text is shown, and that it is shown as it is.
-/

namespace BuildQuery

namespace Text

/-- What is found stands in front of a mark. -/
theorem before?_sound {mark cs found : List Char} (h : before? mark cs = some found) :
    ∃ rest, cs = found ++ mark ++ rest := by
  -- on the characters: the mark stands here, or it is looked for behind the first character
  induction cs generalizing found with
  | nil =>
    unfold before? at h
    split at h
    · next hEmpty =>
      cases h
      exact ⟨[], by rw [List.isEmpty_iff.mp hEmpty]; rfl⟩
    · cases h
  | cons c cs ih =>
    unfold before? at h
    split at h
    · next hHere =>
      cases h
      obtain ⟨rest, hRest⟩ := List.isPrefixOf_iff_prefix.mp hHere
      exact ⟨rest, hRest.symm⟩
    · obtain ⟨later, hLater, rfl⟩ := Option.map_eq_some_iff.mp h
      obtain ⟨rest, hRest⟩ := ih hLater
      exact ⟨rest, by rw [hRest]; rfl⟩

/-- Where a mark stands, the first one stands there or further to the left. -/
theorem exists_before (other mark rest : List Char) :
    ∃ found, before? mark (other ++ mark ++ rest) = some found ∧ found.length ≤ other.length := by
  -- On what stands in front of the mark. A mark may begin in it, which makes the text that is found
  -- shorter.
  induction other with
  | nil =>
    have hHere : mark.isPrefixOf (mark ++ rest) = true :=
      List.isPrefixOf_iff_prefix.mpr (List.prefix_append mark rest)
    refine ⟨[], ?_, Nat.le_refl 0⟩
    rw [List.nil_append]
    unfold before?
    split
    · next hNil => rw [if_pos (List.isEmpty_iff.mpr (List.append_eq_nil_iff.mp hNil).1)]
    · next hCons => rw [if_pos (hCons ▸ hHere)]
  | cons c other ih =>
    obtain ⟨found, hFound, hLength⟩ := ih
    rw [List.cons_append, List.cons_append, before?]
    split
    · exact ⟨[], rfl, Nat.zero_le _⟩
    · exact ⟨c :: found, by rw [hFound]; rfl, Nat.succ_le_succ hLength⟩

end Text

namespace Report

open Text

/-- The text begins with a link: its start, a title and the mark behind the title. -/
def LinkWith (title s : String) : Prop :=
  ∃ rest, s = "<a title=\"" ++ title ++ "\" href=\"" ++ rest

/-- The characters of a link. -/
theorem toList_link (title rest : String) :
    ("<a title=\"" ++ title ++ "\" href=\"" ++ rest).toList =
      linkStart ++ (title.toList ++ linkMark ++ rest.toList) := by
  have hStart : "<a title=\"".toList = linkStart := by
    unfold linkStart
    rfl
  have hMark : "\" href=\"".toList = linkMark := by
    unfold linkMark
    rfl
  rw [String.toList_append, String.toList_append, String.toList_append, hStart, hMark]
  simp only [List.append_assoc]

/-- A link as it is found: a mark stands somewhere behind the start. -/
theorem linkWith_iff {title s : String} : LinkWith title s ↔
    ∃ rest, after? linkStart s.toList = some (title.toList ++ linkMark ++ rest) := by
  unfold LinkWith
  simp only [after?_eq_some_iff]
  constructor
  · rintro ⟨rest, rfl⟩
    exact ⟨rest.toList, toList_link title rest⟩
  · rintro ⟨rest, hRest⟩
    refine ⟨String.ofList rest, ?_⟩
    rw [← String.toList_inj, toList_link, String.toList_ofList, hRest]

/-- The title of a link that is not longer than any other title that the text can be read with. -/
structure ShortestTitle (title s : String) : Prop where
  link : LinkWith title s
  shortest : ∀ other, LinkWith other s → title.length ≤ other.length

/-- **What is shown of a description:** the shortest title of a link, or the description itself. -/
theorem plainDescription_cases (s : String) :
    ShortestTitle (plainDescription s) s ∨ (∀ title, ¬ LinkWith title s) ∧ plainDescription s = s := by
  -- a text is found just when there is a link, and then it ends at the first mark
  cases hFound : (after? linkStart s.toList).bind (before? linkMark) with
  | some found =>
    left
    obtain ⟨behind, hStart, hMark⟩ := Option.bind_eq_some_iff.mp hFound
    have hShown : plainDescription s = String.ofList found := by
      rw [plainDescription, hFound]
    obtain ⟨rest, hRest⟩ := before?_sound hMark
    rw [hShown]
    refine ⟨linkWith_iff.mpr ⟨rest, ?_⟩, ?_⟩
    · rw [hStart, hRest, String.toList_ofList]
    · intro other hOther
      obtain ⟨later, hLater⟩ := linkWith_iff.mp hOther
      obtain ⟨first, hFirst, hLength⟩ := exists_before other.toList linkMark later
      have hSame : first = found := by
        rw [Option.some.inj (hStart.symm.trans hLater), hFirst] at hMark
        exact Option.some.inj hMark
      rw [String.length_ofList, ← hSame, ← String.length_toList]
      exact hLength
  | none =>
    right
    constructor
    · intro title hTitle
      obtain ⟨rest, hRest⟩ := linkWith_iff.mp hTitle
      obtain ⟨first, hFirst, -⟩ := exists_before title.toList linkMark rest
      rw [hRest, Option.bind_some, hFirst] at hFound
      cases hFound
    · rw [plainDescription, hFound]

/-- Titles of the same text stand at the same place, so that their length tells them apart. -/
theorem ShortestTitle.unique {s title other : String} (h : ShortestTitle title s)
    (hOther : ShortestTitle other s) : title = other := by
  have hLength : title.length = other.length :=
    Nat.le_antisymm (h.shortest other hOther.link) (hOther.shortest title h.link)
  obtain ⟨rest, hRest⟩ := linkWith_iff.mp h.link
  obtain ⟨later, hLater⟩ := linkWith_iff.mp hOther.link
  have hBehind := Option.some.inj (hRest.symm.trans hLater)
  rw [List.append_assoc, List.append_assoc] at hBehind
  rw [← String.toList_inj]
  exact List.append_inj_left hBehind (by rw [String.length_toList, String.length_toList, hLength])

/-- A link inside the title would end the title earlier. -/
theorem ShortestTitle.not_link {s title : String} (h : ShortestTitle title s) (inner : String) :
    ¬ LinkWith inner title := by
  rintro ⟨rest, hTitle⟩
  obtain ⟨behind, hBehind⟩ := h.link
  have hEarlier : LinkWith ("<a title=\"" ++ inner) s := by
    refine ⟨rest ++ "\" href=\"" ++ behind, ?_⟩
    rw [hBehind, hTitle]
    simp only [String.append_assoc]
  have hShorter := h.shortest _ hEarlier
  have hMark : "\" href=\"".length = 8 := rfl
  rw [hTitle, String.length_append, String.length_append, hMark] at hShorter
  omega

/-- **The title of a link.** Of a description that is a link the shortest title is shown, and any other
description is shown as it is. What is shown is shown as it is. -/
theorem shortest_title (s : String) :
    (∀ shown, plainDescription s = shown ↔
      ShortestTitle shown s ∨ (∀ title, ¬ LinkWith title s) ∧ shown = s) ∧
      plainDescription (plainDescription s) = plainDescription s := by
  constructor
  · intro shown
    constructor
    · rintro rfl
      exact plainDescription_cases s
    · rintro (hShown | ⟨hNone, rfl⟩)
      · rcases plainDescription_cases s with hTitle | ⟨hNone, -⟩
        · exact hTitle.unique hShown
        · exact absurd hShown.link (hNone shown)
      · rcases plainDescription_cases shown with hTitle | ⟨-, hSame⟩
        · exact absurd hTitle.link (hNone _)
        · exact hSame
  · rcases plainDescription_cases s with hTitle | ⟨-, hSame⟩
    · rcases plainDescription_cases (plainDescription s) with hInner | ⟨-, hSame⟩
      · exact absurd hInner.link (hTitle.not_link _)
      · exact hSame
    · rw [hSame, hSame]

/-- A mark may begin with the last character of another one, and a title may begin as a link does. -/
example : plainDescription "<a title=\"<a title=\" href=\" href=\"x" = "<a title=" := by
  decide +kernel

end Report

end BuildQuery

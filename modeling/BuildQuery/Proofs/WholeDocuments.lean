import BuildQuery.Proofs.LexemeCuts

/-!
# BuildQuery — what is read without a fault

A document that is read to its end, with nothing behind it, is whole, and the lexemes that were read are
its lexemes: the reader accepts nothing else. A document that breaks off carries a fault, so that one
without a fault was read to its end.

The reader knows whether the last lexeme was a number, and behind any other lexeme the bytes can be cut.

Main results:

* `leads_iff_complete` — the lexemes that lead from inside a document to its end.
* `read_whole_iff` — the bytes that are read as a document without a fault.
* `lex_append_of_atEnd`, `leads_of_read`, `read_of_leads` — reading goes on where the bytes are cut.
-/

namespace BuildQuery.Json

/-- How far a document has been read when the bytes end. -/
def progress (bytes : List UInt8) : Progress :=
  (lex bytes).foldl Progress.step (.inside .value [])

/-- What is read is how far the document has come when the bytes end. -/
theorem read_eq_finish (bytes : List UInt8) : read bytes = (progress bytes).finish := rfl

/-- Bytes with lexemes that lead to the end of a document are read as this document. -/
theorem read_of_complete {bytes : List UInt8} {ls : List Lexeme} {doc : Doc} (hLex : lex bytes = ls)
    (hComplete : ls.foldl Progress.step (.inside .value []) = .complete doc) :
    read bytes = ⟨doc, false⟩ := by
  rw [read_eq_finish, progress, hLex, hComplete]
  rfl

-- ---------------------------------------------------------------------------
-- Lexemes up to the end of a document
-- ---------------------------------------------------------------------------

/-- Lexemes that close the open containers behind a document: each container has its further items or
members, the innermost first. -/
inductive Closes : List Frame → Doc → List Lexeme → Doc → Prop
  | done (doc : Doc) : Closes [] doc [] doc
  | list {before items : List Doc} {stack : List Frame} {doc all : Doc} {ls : List Lexeme}
      (hItems : ∀ item ∈ items, item.Whole)
      (hStack : Closes stack (.list (before.reverse ++ doc :: items) none) ls all) :
      Closes (.list before :: stack) doc (moreItemLexemes items ++ ls) all
  | object {before members : List (Spelling × Doc)} {name : Spelling} {stack : List Frame}
      {doc all : Doc} {ls : List Lexeme} (hMembers : ∀ m ∈ members, m.2.Whole)
      (hStack : Closes stack (.object (before.reverse ++ (name, doc) :: members) none) ls all) :
      Closes (.object before name :: stack) doc (moreMemberLexemes members ++ ls) all

/-- Lexemes that lead from what is wanted to the end of the document. -/
inductive Leads : Want → List Frame → List Lexeme → Doc → Prop
  | value {doc all : Doc} {stack : List Frame} {ls : List Lexeme} (hDoc : doc.Whole)
      (hStack : Closes stack doc ls all) : Leads .value stack (doc.lexemes ++ ls) all
  | noItem {all : Doc} {stack : List Frame} {ls : List Lexeme}
      (hStack : Closes stack (.list [] none) ls all) : Leads .firstItem stack (.closeList :: ls) all
  | firstItem {doc all : Doc} {stack : List Frame} {ls : List Lexeme} (hDoc : doc.Whole)
      (hStack : Closes (.list [] :: stack) doc ls all) : Leads .firstItem stack (doc.lexemes ++ ls) all
  | afterItem {before items : List Doc} {all : Doc} {stack : List Frame} {ls : List Lexeme}
      (hItems : ∀ item ∈ items, item.Whole)
      (hStack : Closes stack (.list (before.reverse ++ items) none) ls all) :
      Leads (.afterItem before) stack (moreItemLexemes items ++ ls) all
  | noName {all : Doc} {stack : List Frame} {ls : List Lexeme}
      (hStack : Closes stack (.object [] none) ls all) : Leads .firstName stack (.closeObject :: ls) all
  | firstName {name : Spelling} {doc all : Doc} {stack : List Frame} {ls : List Lexeme}
      (hDoc : doc.Whole) (hStack : Closes (.object [] name :: stack) doc ls all) :
      Leads .firstName stack (.text name :: .colon :: doc.lexemes ++ ls) all
  | nextName {before : List (Spelling × Doc)} {name : Spelling} {doc all : Doc} {stack : List Frame}
      {ls : List Lexeme} (hDoc : doc.Whole) (hStack : Closes (.object before name :: stack) doc ls all) :
      Leads (.nextName before) stack (.text name :: .colon :: doc.lexemes ++ ls) all
  | colon {before : List (Spelling × Doc)} {name : Spelling} {doc all : Doc} {stack : List Frame}
      {ls : List Lexeme} (hDoc : doc.Whole) (hStack : Closes (.object before name :: stack) doc ls all) :
      Leads (.colon before name) stack (.colon :: doc.lexemes ++ ls) all
  | afterMember {before members : List (Spelling × Doc)} {all : Doc} {stack : List Frame}
      {ls : List Lexeme} (hMembers : ∀ m ∈ members, m.2.Whole)
      (hStack : Closes stack (.object (before.reverse ++ members) none) ls all) :
      Leads (.afterMember before) stack (moreMemberLexemes members ++ ls) all

/-- Lexemes that lead to the end of the document. -/
def Progress.Leads : Progress → List Lexeme → Doc → Prop
  | .inside want stack, ls, all => Json.Leads want stack ls all
  | .complete doc, ls, all => ls = [] ∧ doc = all
  | _, _, _ => False

/-- Lexemes that lead on from where a document was put close the containers behind it. -/
theorem closes_of_place {doc all : Doc} {stack : List Frame} {ls : List Lexeme}
    (h : (place doc stack).Leads ls all) : Closes stack doc ls all := by
  match stack, h with
  | [], ⟨hEnd, hAll⟩ =>
    subst hEnd hAll
    exact .done _
  | .list before :: stack, .afterItem hItems hStack =>
    rw [List.reverse_cons, List.append_assoc] at hStack
    exact .list hItems hStack
  | .object before name :: stack, .afterMember hMembers hStack =>
    rw [List.reverse_cons, List.append_assoc] at hStack
    exact .object hMembers hStack

/-- A lexeme where a value is wanted is the value, or opens the container that the later lexemes fill. -/
theorem leads_stepValue {stack : List Frame} {l : Lexeme} {ls : List Lexeme} {all : Doc}
    (h : (stepValue stack l).Leads ls all) : Leads .value stack (l :: ls) all := by
  cases l with
  | null => exact .value .null (closes_of_place h)
  | bool b => exact .value (.bool b) (closes_of_place h)
  | number n => exact .value (.number n) (closes_of_place h)
  | text s => exact .value (.text s) (closes_of_place h)
  | openList =>
    -- the later lexemes begin in the empty list: they end it, or give its first item and the others
    cases h with
    | noItem hStack => exact .value (.list (List.forall_mem_nil _)) hStack
    | firstItem hDoc hStack =>
      cases hStack with
      | list hItems hStack =>
        rw [← List.append_assoc]
        exact .value (.list (List.forall_mem_cons.mpr ⟨hDoc, hItems⟩)) hStack
  | openObject =>
    cases h with
    | noName hStack => exact .value (.object (List.forall_mem_nil _)) hStack
    | @firstName name doc _ _ _ hDoc hStack =>
      cases hStack with
      | @object _ members _ _ _ _ _ hMembers hStack =>
        have hWhole : ∀ m ∈ (name, doc) :: members, m.2.Whole :=
          List.forall_mem_cons.mpr ⟨hDoc, hMembers⟩
        rw [List.cons_append, List.cons_append, ← List.append_assoc]
        exact .value (.object hWhole) hStack
  | _ => exact False.elim h

/-- A value that is wanted in an empty list is its first item. -/
theorem Leads.ofFirst {stack : List Frame} {ls : List Lexeme} {all : Doc}
    (h : Leads .value (.list [] :: stack) ls all) : Leads .firstItem stack ls all := by
  cases h with
  | value hDoc hStack => exact .firstItem hDoc hStack

/-- A lexeme leads on from what is wanted if the later lexemes lead on from where it leads. -/
theorem leads_stepInside {want : Want} {stack : List Frame} {l : Lexeme} {ls : List Lexeme} {all : Doc}
    (h : (stepInside want stack l).Leads ls all) : Leads want stack (l :: ls) all := by
  -- one case for each place inside a document; all lexemes that are not wanted there stop the reader
  cases want with
  | value => exact leads_stepValue h
  | firstItem =>
    cases l with
    | closeList => exact .noItem (closes_of_place h)
    | _ => exact .ofFirst (leads_stepValue h)
  | afterItem before =>
    cases l with
    | closeList =>
      have hNone : ∀ item ∈ ([] : List Doc), item.Whole := List.forall_mem_nil _
      refine .afterItem hNone ?_
      rw [List.append_nil]
      exact closes_of_place h
    | comma =>
      cases h with
      | @value doc _ _ _ hDoc hStack =>
        cases hStack with
        | @list _ items _ _ _ _ hItems hStack =>
          have hWhole : ∀ item ∈ doc :: items, item.Whole := List.forall_mem_cons.mpr ⟨hDoc, hItems⟩
          rw [← List.append_assoc]
          exact .afterItem hWhole hStack
    | _ => exact False.elim h
  | firstName =>
    cases l with
    | closeObject => exact .noName (closes_of_place h)
    | text name =>
      cases h with
      | colon hDoc hStack => exact .firstName hDoc hStack
    | _ => exact False.elim h
  | nextName before =>
    cases l with
    | text name =>
      cases h with
      | colon hDoc hStack => exact .nextName hDoc hStack
    | _ => exact False.elim h
  | colon before name =>
    cases l with
    | colon =>
      cases h with
      | value hDoc hStack => exact .colon hDoc hStack
    | _ => exact False.elim h
  | afterMember before =>
    cases l with
    | closeObject =>
      have hNone : ∀ m ∈ ([] : List (Spelling × Doc)), m.2.Whole := List.forall_mem_nil _
      refine .afterMember hNone ?_
      rw [List.append_nil]
      exact closes_of_place h
    | comma =>
      cases h with
      | @nextName _ name doc _ _ _ hDoc hStack =>
        cases hStack with
        | @object _ members _ _ _ _ _ hMembers hStack =>
          have hWhole : ∀ m ∈ (name, doc) :: members, m.2.Whole :=
            List.forall_mem_cons.mpr ⟨hDoc, hMembers⟩
          rw [List.cons_append, List.cons_append, ← List.append_assoc]
          exact .afterMember hWhole hStack
    | _ => exact False.elim h

/-- Lexemes that are read to the end lead there. -/
theorem leads_of_complete {p : Progress} {ls : List Lexeme} {all : Doc}
    (h : ls.foldl Progress.step p = .complete all) : p.Leads ls all := by
  -- on the lexemes, from behind: the last step ends the document, and each step before it leads on
  induction ls generalizing p with
  | nil =>
    subst h
    exact ⟨rfl, rfl⟩
  | cons l ls ih =>
    have hLater : (p.step l).Leads ls all := ih h
    -- a document that is over, or was stopped, has no way to its end
    cases p with
    | inside want stack => exact leads_stepInside hLater
    | complete | followed | stopped => exact False.elim hLater

/-- The lexemes that close the open containers are read to the end. -/
theorem Closes.complete {stack : List Frame} {doc all : Doc} {ls : List Lexeme}
    (h : Closes stack doc ls all) : ls.foldl Progress.step (place doc stack) = .complete all := by
  -- on the containers, the innermost first
  induction h with
  | done doc => rfl
  | @list before items stack doc all ls hItems _ ih =>
    have hReads : ∀ item ∈ items, item.Reads := fun item hItem => (hItems item hItem).reads
    rw [place, List.foldl_append, foldl_moreItems hReads, List.reverse_cons, List.append_assoc]
    exact ih
  | @object before members name stack doc all ls hMembers _ ih =>
    have hReads : ∀ m ∈ members, m.2.Reads := fun m hm => (hMembers m hm).reads
    rw [place, List.foldl_append, foldl_moreMembers hReads, List.reverse_cons, List.append_assoc]
    exact ih

/-- A document and the lexemes that close the containers behind it are read to the end. -/
theorem complete_value {doc all : Doc} {stack : List Frame} {ls : List Lexeme} (hDoc : doc.Whole)
    (hStack : Closes stack doc ls all) :
    (doc.lexemes ++ ls).foldl Progress.step (.inside .value stack) = .complete all := by
  rw [List.foldl_append, hDoc.reads]
  exact hStack.complete

/-- Lexemes that lead to the end are read to the end. -/
theorem Leads.complete {want : Want} {stack : List Frame} {ls : List Lexeme} {all : Doc}
    (h : Leads want stack ls all) : ls.foldl Progress.step (.inside want stack) = .complete all := by
  cases h with
  | value hDoc hStack => exact complete_value hDoc hStack
  | noItem hStack => exact hStack.complete
  | firstItem hDoc hStack =>
    rw [List.foldl_append, foldl_firstItem, ← List.foldl_append]
    exact complete_value hDoc hStack
  | afterItem hItems hStack =>
    rw [List.foldl_append, foldl_moreItems fun item hItem => (hItems item hItem).reads]
    exact hStack.complete
  | noName hStack => exact hStack.complete
  | firstName hDoc hStack | nextName hDoc hStack | colon hDoc hStack =>
    exact complete_value hDoc hStack
  | afterMember hMembers hStack =>
    rw [List.foldl_append, foldl_moreMembers fun m hm => (hMembers m hm).reads]
    exact hStack.complete

/-- **From inside a document to its end** lead exactly the lexemes with which reading ends there. -/
theorem leads_iff_complete {want : Want} {stack : List Frame} {ls : List Lexeme} {all : Doc} :
    Leads want stack ls all ↔ ls.foldl Progress.step (.inside want stack) = .complete all :=
  ⟨Leads.complete, leads_of_complete⟩

-- ---------------------------------------------------------------------------
-- Documents that break off
-- ---------------------------------------------------------------------------

/-- Putting a document that has a fault into its containers leaves a fault. -/
theorem skipFault?_unwind (fault : Break) {doc : Doc} (h : doc.skipFault? ≠ none)
    (stack : List Frame) : (unwind fault doc stack).skipFault? ≠ none := by
  induction stack generalizing doc with
  | nil => exact h
  | cons frame stack ih =>
    cases frame with
    | list items => exact ih (Option.some_ne_none _)
    | object members name => exact ih (Option.some_ne_none _)

/-- A document that breaks off has a fault. -/
theorem skipFault?_breakOff (fault : Break) (stack : List Frame) (want : Want) :
    (breakOff fault stack want).skipFault? ≠ none := by
  cases want <;>
    · refine skipFault?_unwind fault ?_ stack
      nofun

/-- Reading stops at faults only. -/
def Progress.StopsAtFault (p : Progress) : Prop :=
  ∀ doc, p = .stopped doc → doc.skipFault? ≠ none

/-- Where a document is put reading does not stop. -/
theorem stopsAtFault_place (doc : Doc) (stack : List Frame) : (place doc stack).StopsAtFault := by
  rcases stack with _ | ⟨_ | _, _⟩ <;> exact nofun

/-- Where a document breaks off reading stops at its fault. -/
theorem stopsAtFault_breakOff (fault : Break) (stack : List Frame) (want : Want) :
    (Progress.stopped (breakOff fault stack want)).StopsAtFault := by
  rintro _ ⟨⟩
  exact skipFault?_breakOff fault stack want

/-- Where a value is wanted reading stops at faults only. -/
theorem stopsAtFault_stepValue (stack : List Frame) (l : Lexeme) :
    (stepValue stack l).StopsAtFault := by
  cases l <;> first | exact stopsAtFault_place _ _ | exact stopsAtFault_breakOff _ _ _ | exact nofun

/-- **One lexeme** keeps it so that reading stops at faults only. -/
theorem Progress.StopsAtFault.step {p : Progress} (h : p.StopsAtFault) (l : Lexeme) :
    (p.step l).StopsAtFault := by
  cases p with
  | inside want stack =>
    show (stepInside want stack l).StopsAtFault
    unfold stepInside
    split <;> first
      | exact stopsAtFault_place _ _
      | exact stopsAtFault_stepValue _ _
      | exact stopsAtFault_breakOff _ _ _
      | exact nofun
  | complete | followed => exact nofun
  | stopped doc => exact h

/-- However many lexemes are read, reading stops at faults only. -/
theorem stopsAtFault_progress (bytes : List UInt8) : (progress bytes).StopsAtFault :=
  List.foldlRecOn (lex bytes) Progress.step nofun fun _ h l _ => h.step l

/-- **A document without a fault** was read to its end. -/
theorem complete_of_read {bytes : List UInt8} {doc : Doc} (h : read bytes = ⟨doc, false⟩)
    (hSound : doc.skipFault? = none) : progress bytes = .complete doc := by
  rw [read_eq_finish] at h
  -- of the four ways a reading ends, one leaves something behind and two leave a fault
  cases hProgress : progress bytes with
  | inside want stack =>
    rw [hProgress] at h
    cases h
    exact absurd hSound (skipFault?_breakOff _ _ _)
  | complete found =>
    rw [hProgress] at h
    cases h
    rfl
  | followed found =>
    rw [hProgress] at h
    cases h
  | stopped found =>
    rw [hProgress] at h
    cases h
    exact absurd hSound (stopsAtFault_progress bytes doc hProgress)

/-- A whole document has no fault. -/
theorem Doc.Whole.skipFault? {doc : Doc} (h : doc.Whole) : doc.skipFault? = none := by
  cases h <;> rfl

/-- **The bytes of a document without a fault** are those with the lexemes of a whole document. -/
theorem read_whole_iff {bytes : List UInt8} {doc : Doc} :
    read bytes = ⟨doc, false⟩ ∧ doc.skipFault? = none ↔ doc.Whole ∧ lex bytes = doc.lexemes := by
  constructor
  · rintro ⟨hRead, hSound⟩
    have hLeads : Leads .value [] (lex bytes) doc := leads_of_complete (complete_of_read hRead hSound)
    generalize lex bytes = ls at hLeads
    -- no container is open around the document, so its lexemes are all there are
    cases hLeads with
    | value hDoc hStack =>
      cases hStack with
      | done => exact ⟨hDoc, List.append_nil _⟩
  · rintro ⟨hWhole, hLex⟩
    exact ⟨read_of_lex hWhole hLex, hWhole.skipFault?⟩

-- ---------------------------------------------------------------------------
-- Where bytes can be cut
-- ---------------------------------------------------------------------------

/-- A number, which ends where no digit follows. -/
def Doc.isNumber : Doc → Bool
  | .number _ => true
  | _ => false

/-- The last lexeme had its end in itself: it was no number, and nothing is broken. -/
def Progress.AtEnd : Progress → Prop
  | .inside (.afterItem items) _ => ∀ doc ∈ items.head?, doc.isNumber = false
  | .inside (.afterMember members) _ => ∀ m ∈ members.head?, m.2.isNumber = false
  | .inside _ _ => True
  | .complete doc => doc.isNumber = false
  | .followed _ | .stopped _ => False

/-- A number does not have its end in itself, wherever it is put. -/
theorem not_atEnd_place (n : Numeral) (stack : List Frame) : ¬ (place (.number n) stack).AtEnd := by
  rcases stack with _ | ⟨_ | _, _⟩
  · exact nofun
  · exact fun h => nomatch h _ rfl
  · exact fun h => nomatch h _ rfl

/-- Behind a lexeme that had its end in itself the bytes can be cut. -/
theorem closed_of_atEnd {p : Progress} {l : Lexeme} (h : (p.step l).AtEnd) : l.closed = true := by
  cases l with
  | number n =>
    -- a number leads to a place that is not at an end, and where no value is wanted it breaks the document
    exfalso
    match p, h with
    | .inside .value stack, h => exact not_atEnd_place n stack h
    | .inside .firstItem stack, h => exact not_atEnd_place n (.list [] :: stack) h
  | brokenText fault | broken fault =>
    exfalso
    cases p with
    | inside want stack => cases want <;> exact h
    | complete | followed | stopped => exact h
  | _ => rfl

/-- **Bytes can be cut** behind any lexeme that is no number. -/
theorem lex_append_of_atEnd {bs : List UInt8} (h : (progress bs).AtEnd) (more : List UInt8) :
    lex (bs ++ more) = lex bs ++ lex more := by
  refine lex_append ?_ more
  intro l hl
  obtain ⟨front, hFront⟩ := List.getLast?_eq_some_iff.mp hl
  rw [progress, hFront, List.foldl_append] at h
  exact closed_of_atEnd h

section Cut

variable {bs more : List UInt8} {want : Want} {stack : List Frame} {doc : Doc}
  (hCut : lex (bs ++ more) = lex bs ++ lex more) (hProgress : progress bs = .inside want stack)

include hCut hProgress

/-- Reading goes on behind the cut from where it came to. -/
theorem progress_append :
    progress (bs ++ more) = (lex more).foldl Progress.step (.inside want stack) := by
  rw [← hProgress, progress, hCut, List.foldl_append]
  rfl

/-- **What is read behind a cut** leads from there to the end of the document. -/
theorem leads_of_read (hRead : read (bs ++ more) = ⟨doc, false⟩) (hSound : doc.skipFault? = none) :
    Leads want stack (lex more) doc := by
  rw [leads_iff_complete, ← progress_append hCut hProgress]
  exact complete_of_read hRead hSound

/-- Bytes with lexemes that lead to the end may be put behind the cut. -/
theorem read_of_leads (h : Leads want stack (lex more) doc) : read (bs ++ more) = ⟨doc, false⟩ := by
  rw [read_eq_finish, progress_append hCut hProgress, leads_iff_complete.mp h]
  rfl

end Cut

end BuildQuery.Json

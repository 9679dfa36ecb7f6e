import BuildQuery.Proofs.RecordSlots
import BuildQuery.Proofs.WholeDocuments

/-!
# BuildQuery — items spliced into a list

A field of a record may be a list. Bytes are cut somewhere in this list, between two lexemes, and an item
is put there with a comma to its neighbour (`Spliced`). The document of the new bytes is the old one with
the item in the list, and nothing else is changed.

Main results:

* `exists_slot` — what closes an open record does not depend on the document in its field.
* `Spliced.read` — the document of the new bytes.
-/

namespace BuildQuery.Json

variable {φ : Type} {fields : Shape.Fields φ} {name : String} {top : Frame}

-- ---------------------------------------------------------------------------
-- Open records
-- ---------------------------------------------------------------------------

/-- A record is open where it has the field with this name. -/
inductive OpenAt (fields : Shape.Fields φ) (name : String) : Frame → Prop
  | member (before : List (Spelling × Doc)) {spelling : Spelling}
      (hName : spelling.text? = some name) : OpenAt fields name (.object before spelling)
  | item (before : List Doc) (hName : (fields.map Prod.fst)[before.length]? = some name) :
      OpenAt fields name (.list before)

/-- Behind the field, an open record is closed in the same way for all documents in it. -/
theorem exists_slot (hOpen : OpenAt fields name top) {doc all : Doc} {ls : List Lexeme}
    (h : Closes [top] doc ls all) :
    ∃ put, Slot fields name put ∧ all = put doc ∧ ∀ doc', Closes [top] doc' ls (put doc') := by
  -- a record is written with names or as a list of its fields; both are closed by what closes them
  cases hOpen with
  | @member before spelling hName =>
    cases h with
    | @object _ members _ _ _ _ _ hMembers hStack =>
      cases hStack
      exact ⟨_, .member before.reverse members hName, rfl, fun doc' => .object hMembers (.done _)⟩
  | item before hName =>
    cases h with
    | @list _ items _ _ _ _ hItems hStack =>
      cases hStack
      rw [← List.length_reverse] at hName
      exact ⟨_, .item before.reverse items hName, rfl, fun doc' => .list hItems (.done _)⟩

-- ---------------------------------------------------------------------------
-- One more item
-- ---------------------------------------------------------------------------

section OneMore

variable {item all : Doc} {before : List Doc} {ls : List Lexeme} (hOpen : OpenAt fields name top)
  (hItem : item.Whole)

include hOpen hItem

/-- In an empty list. -/
theorem leads_only (h : Leads .firstItem [top] ls all) (hEmpty : ls.head? = some .closeList) :
    ∃ put, Slot fields name put ∧ all = put (.list [] none) ∧
      Leads .firstItem [top] (item.lexemes ++ ls) (put (.list [item] none)) := by
  cases h with
  | noItem hStack =>
    obtain ⟨put, hSlot, hAll, hAgain⟩ := exists_slot hOpen hStack
    refine ⟨put, hSlot, hAll, .firstItem hItem ?_⟩
    exact .list (List.forall_mem_nil _) (hAgain _)
  | @firstItem doc _ _ _ _ _ =>
    obtain ⟨l, later, hLexemes, hFirst⟩ := exists_lexemes doc
    rw [hLexemes] at hEmpty
    exact absurd (Option.some.inj hEmpty) hFirst

/-- Before an item. -/
theorem leads_before (h : Leads .value [.list before, top] ls all) :
    ∃ put after, Slot fields name put ∧ all = put (.list (before.reverse ++ after) none) ∧
      Leads .value [.list before, top] (item.lexemes ++ .comma :: ls)
        (put (.list (before.reverse ++ item :: after) none)) := by
  cases h with
  | @value doc _ _ _ hDoc hStack =>
    cases hStack with
    | @list _ items _ _ _ ls hItems hStack =>
      obtain ⟨put, hSlot, hAll, hAgain⟩ := exists_slot hOpen hStack
      have hLater : ∀ i ∈ doc :: items, i.Whole := List.forall_mem_cons.mpr ⟨hDoc, hItems⟩
      have hClosed := hAgain (.list (before.reverse ++ item :: doc :: items) none)
      refine ⟨put, doc :: items, hSlot, hAll, ?_⟩
      rw [← List.append_assoc]
      exact .value hItem (.list hLater hClosed)

/-- Behind an item. -/
theorem leads_behind (h : Leads (.afterItem before) [top] ls all) :
    ∃ put after, Slot fields name put ∧ all = put (.list (before.reverse ++ after) none) ∧
      Leads (.afterItem before) [top] (.comma :: item.lexemes ++ ls)
        (put (.list (before.reverse ++ item :: after) none)) := by
  cases h with
  | @afterItem _ items _ _ ls hItems hStack =>
    obtain ⟨put, hSlot, hAll, hAgain⟩ := exists_slot hOpen hStack
    have hLater : ∀ i ∈ item :: items, i.Whole := List.forall_mem_cons.mpr ⟨hItem, hItems⟩
    have hClosed := hAgain (.list (before.reverse ++ item :: items) none)
    refine ⟨put, items, hSlot, hAll, ?_⟩
    rw [← List.append_assoc]
    exact .afterItem hLater hClosed

end OneMore

/-- A value is wanted as the first item where the list does not end. -/
theorem Leads.value_of_first {stack : List Frame} {ls : List Lexeme} {all : Doc}
    (h : Leads .firstItem stack ls all) (hSome : ls.head? ≠ some .closeList) :
    Leads .value (.list [] :: stack) ls all := by
  cases h with
  | noItem hStack => exact absurd rfl hSome
  | firstItem hDoc hStack => exact .value hDoc hStack

-- ---------------------------------------------------------------------------
-- Bytes with one more item
-- ---------------------------------------------------------------------------

/-- The byte of a comma. -/
def commaByte : UInt8 := 0x2C

/-- Bytes of an item are spliced into a list, behind this many items. The list is a field of the record
that all bytes describe. They are cut between two lexemes, and a comma is put between the item and its
neighbour. -/
inductive Spliced (fields : Shape.Fields φ) (name : String) (item : List UInt8) :
    Nat → List UInt8 → List UInt8 → Prop
  /-- Into an empty list. -/
  | only {top : Frame} {pre post : List UInt8} (hOpen : OpenAt fields name top)
      (hPre : progress pre = .inside .firstItem [top])
      (hPost : (lex post).head? = some .closeList) :
      Spliced fields name item 0 (pre ++ post) (pre ++ (item ++ post))
  /-- Before the first item. -/
  | first {top : Frame} {pre post : List UInt8} (hOpen : OpenAt fields name top)
      (hPre : progress pre = .inside .firstItem [top])
      (hPost : (lex post).head? ≠ some .closeList) :
      Spliced fields name item 0 (pre ++ post) (pre ++ (item ++ commaByte :: post))
  /-- Behind a comma, before the next item. -/
  | before {top : Frame} {pre post : List UInt8} {items : List Doc} (hOpen : OpenAt fields name top)
      (hPre : progress pre = .inside .value [.list items, top]) :
      Spliced fields name item items.length (pre ++ post) (pre ++ (item ++ commaByte :: post))
  /-- Behind an item. -/
  | behind {top : Frame} {pre post : List UInt8} {items : List Doc} (hOpen : OpenAt fields name top)
      (hPre : progress pre = .inside (.afterItem items) [top])
      (hCut : lex (pre ++ post) = lex pre ++ lex post) :
      Spliced fields name item items.length (pre ++ post) (pre ++ (commaByte :: (item ++ post)))

/-- A comma is a lexeme of its own, whatever stands behind it. -/
theorem lex_commaByte (bs : List UInt8) : lex (commaByte :: bs) = .comma :: lex bs :=
  lex_mark (by decide) rfl

/-- **The document of the new bytes** is the old one with the item in the list. The item and the items
before it are no numbers, which could go on in the bytes behind them. -/
theorem Spliced.read {bytes body body' : List UInt8} {k : Nat} {item doc : Doc}
    (h : Spliced fields name bytes k body body') (hItem : read bytes = ⟨item, false⟩)
    (hItemSound : item.skipFault? = none) (hItemEnd : item.isNumber = false)
    (hBody : Json.read body = ⟨doc, false⟩) (hSound : doc.skipFault? = none)
    (hItems : ∀ put items, Slot fields name put → doc = put (.list items none) →
      ∀ i ∈ items, i.isNumber = false) :
    ∃ put before after, Slot fields name put ∧ doc = put (.list (before ++ after) none) ∧
      before.length = k ∧ Json.read body' = ⟨put (.list (before ++ item :: after) none), false⟩ := by
  obtain ⟨hWhole, hLexemes⟩ := read_whole_iff.mp ⟨hItem, hItemSound⟩
  have hEnd : (progress bytes).AtEnd := by
    rw [complete_of_read hItem hItemSound]
    exact hItemEnd
  have hLex (more : List UInt8) : lex (bytes ++ more) = item.lexemes ++ lex more := by
    rw [lex_append_of_atEnd hEnd, hLexemes]
  -- By the place of the cut. In all cases what is read of the old bytes behind it is read of the new ones.
  cases h with
  | @only top pre post hOpen hPre hPost =>
    have hCut : (progress pre).AtEnd := hPre ▸ trivial
    have hLeads := leads_of_read (lex_append_of_atEnd hCut post) hPre hBody hSound
    obtain ⟨put, hSlot, hAll, hNew⟩ := leads_only hOpen hWhole hLeads hPost
    refine ⟨put, [], [], hSlot, hAll, rfl, ?_⟩
    rw [← hLex] at hNew
    exact read_of_leads (lex_append_of_atEnd hCut _) hPre hNew
  | @first top pre post hOpen hPre hPost =>
    have hCut : (progress pre).AtEnd := hPre ▸ trivial
    have hLeads := leads_of_read (lex_append_of_atEnd hCut post) hPre hBody hSound
    obtain ⟨put, after, hSlot, hAll, hNew⟩ := leads_before hOpen hWhole (hLeads.value_of_first hPost)
    refine ⟨put, [], after, hSlot, hAll, rfl, ?_⟩
    rw [← lex_commaByte, ← hLex] at hNew
    exact read_of_leads (lex_append_of_atEnd hCut _) hPre hNew.ofFirst
  | @before top pre post items hOpen hPre =>
    have hCut : (progress pre).AtEnd := hPre ▸ trivial
    have hLeads := leads_of_read (lex_append_of_atEnd hCut post) hPre hBody hSound
    obtain ⟨put, after, hSlot, hAll, hNew⟩ := leads_before hOpen hWhole hLeads
    refine ⟨put, items.reverse, after, hSlot, hAll, List.length_reverse, ?_⟩
    rw [← lex_commaByte, ← hLex] at hNew
    exact read_of_leads (lex_append_of_atEnd hCut _) hPre hNew
  | @behind top pre post items hOpen hPre hCut =>
    have hLeads := leads_of_read hCut hPre hBody hSound
    obtain ⟨put, after, hSlot, hAll, hNew⟩ := leads_behind hOpen hWhole hLeads
    -- the last lexeme before the cut may be a number elsewhere, but an item of this list is none
    have hAnyCut : (progress pre).AtEnd := by
      rw [hPre]
      intro last hLast
      refine hItems put _ hSlot hAll last (List.mem_append_left _ ?_)
      exact List.mem_reverse.mpr (List.mem_of_mem_head? hLast)
    refine ⟨put, items.reverse, after, hSlot, hAll, List.length_reverse, ?_⟩
    rw [List.cons_append, ← hLex, ← lex_commaByte] at hNew
    exact read_of_leads (lex_append_of_atEnd hAnyCut _) hPre hNew

end BuildQuery.Json

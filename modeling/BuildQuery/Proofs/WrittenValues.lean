import BuildQuery.Proofs.WrittenLexemes

/-!
# BuildQuery — written values as documents

The lexemes of a whole document lead the reader from the place where the document is wanted to the
place behind it, in any open containers. A value whose numbers are integers is written as the lexemes
of its document, so the document is what is read from its text. All characters of the text are
printed ones.

Main results:

* `Doc.Whole.reads` — a whole document is read from its lexemes.
* `Value.Integral.lexes` — a written value is cut into the lexemes of its document.
* `read_render` — both, for the bytes of the text.
* `Value.Integral.printed` — the text is one line.
-/

namespace BuildQuery.Json

open Text Decimal

-- ---------------------------------------------------------------------------
-- Whole documents
-- ---------------------------------------------------------------------------

mutual

/-- The lexemes of a document that does not break off. -/
def Doc.lexemes : Doc → List Lexeme
  | .null => [.null]
  | .bool value => [.bool value]
  | .number value => [.number value]
  | .text value => [.text value]
  | .list [] _ => [.openList, .closeList]
  | .list (item :: items) _ => .openList :: item.lexemes ++ moreItemLexemes items
  | .object [] _ => [.openObject, .closeObject]
  | .object ((name, doc) :: members) _ =>
    .openObject :: .text name :: .colon :: doc.lexemes ++ moreMemberLexemes members
  | .broken fault => [.broken fault]

/-- The lexemes after the first item of a list. -/
def moreItemLexemes : List Doc → List Lexeme
  | [] => [.closeList]
  | item :: items => .comma :: item.lexemes ++ moreItemLexemes items

/-- The lexemes after the first member of an object. -/
def moreMemberLexemes : List (Spelling × Doc) → List Lexeme
  | [] => [.closeObject]
  | (name, doc) :: members =>
    .comma :: .text name :: .colon :: doc.lexemes ++ moreMemberLexemes members

end

/-- A document that does not break off. -/
inductive Doc.Whole : Doc → Prop
  | null : Whole .null
  | bool (value : Bool) : Whole (.bool value)
  | number (value : Numeral) : Whole (.number value)
  | text (value : Spelling) : Whole (.text value)
  | list {items : List Doc} : (∀ item ∈ items, Whole item) → Whole (.list items none)
  | object {members : List (Spelling × Doc)} :
    (∀ member ∈ members, Whole member.2) → Whole (.object members none)

/-- Reading goes on behind the document once its lexemes are consumed, in any open containers. -/
def Doc.Reads (doc : Doc) : Prop :=
  ∀ stack, doc.lexemes.foldl Progress.step (.inside .value stack) = place doc stack

/-- No document begins with the end of a list. -/
theorem exists_lexemes (doc : Doc) : ∃ l ls, doc.lexemes = l :: ls ∧ l ≠ .closeList := by
  match doc with
  | .null => exact ⟨_, _, rfl, nofun⟩
  | .bool _ => exact ⟨_, _, rfl, nofun⟩
  | .number _ => exact ⟨_, _, rfl, nofun⟩
  | .text _ => exact ⟨_, _, rfl, nofun⟩
  | .list [] _ => exact ⟨_, _, rfl, nofun⟩
  | .list (_ :: _) _ => exact ⟨_, _, rfl, nofun⟩
  | .object [] _ => exact ⟨_, _, rfl, nofun⟩
  | .object (_ :: _) _ => exact ⟨_, _, rfl, nofun⟩
  | .broken _ => exact ⟨_, _, rfl, nofun⟩

/-- The first item of a list is read like a value in the open list. -/
theorem foldl_firstItem (doc : Doc) (stack : List Frame) :
    doc.lexemes.foldl Progress.step (.inside .firstItem stack) =
      doc.lexemes.foldl Progress.step (.inside .value (.list [] :: stack)) := by
  -- the two places differ only where a list may end, and no document begins so
  obtain ⟨l, ls, hLexemes, hFirst⟩ := exists_lexemes doc
  rw [hLexemes, List.foldl_cons, List.foldl_cons]
  congr 1
  cases l <;> first | rfl | exact absurd rfl hFirst

/-- The items after the first are read up to the end of the list. -/
theorem foldl_moreItems {items : List Doc} (h : ∀ item ∈ items, item.Reads) (before : List Doc)
    (stack : List Frame) :
    (moreItemLexemes items).foldl Progress.step (.inside (.afterItem before) stack) =
      place (.list (before.reverse ++ items) none) stack := by
  -- on the items that are left, with the ones already read in front of them, last one first
  induction items generalizing before with
  | nil => rw [List.append_nil]; rfl
  | cons item items ih =>
    obtain ⟨hItem, hItems⟩ := List.forall_mem_cons.mp h
    rw [moreItemLexemes, List.cons_append, List.foldl_cons, List.foldl_append]
    show (moreItemLexemes items).foldl Progress.step
      (item.lexemes.foldl Progress.step (.inside .value (.list before :: stack))) = _
    rw [hItem, place, ih hItems, List.reverse_cons, List.append_assoc]
    rfl

/-- The members after the first are read up to the end of the object. -/
theorem foldl_moreMembers {members : List (Spelling × Doc)} (h : ∀ m ∈ members, m.2.Reads)
    (before : List (Spelling × Doc)) (stack : List Frame) :
    (moreMemberLexemes members).foldl Progress.step (.inside (.afterMember before) stack) =
      place (.object (before.reverse ++ members) none) stack := by
  induction members generalizing before with
  | nil => rw [List.append_nil]; rfl
  | cons m members ih =>
    obtain ⟨name, doc⟩ := m
    obtain ⟨hDoc, hMembers⟩ := List.forall_mem_cons.mp h
    rw [moreMemberLexemes, List.cons_append, List.cons_append, List.cons_append, List.foldl_cons,
      List.foldl_cons, List.foldl_cons, List.foldl_append]
    show (moreMemberLexemes members).foldl Progress.step
      (doc.lexemes.foldl Progress.step (.inside .value (.object before name :: stack))) = _
    rw [hDoc, place, ih hMembers, List.reverse_cons, List.append_assoc]
    rfl

/-- **A whole document is read from its lexemes.** -/
theorem Doc.Whole.reads {doc : Doc} (h : doc.Whole) : doc.Reads := by
  induction h with
  | null => exact fun _ => rfl
  | bool => exact fun _ => rfl
  | number => exact fun _ => rfl
  | text => exact fun _ => rfl
  | @list items _ ih =>
    intro stack
    cases items with
    | nil => rfl
    | cons item items =>
      obtain ⟨hItem, hItems⟩ := List.forall_mem_cons.mp ih
      rw [Doc.lexemes, List.cons_append, List.foldl_cons, List.foldl_append]
      show (moreItemLexemes items).foldl Progress.step
        (item.lexemes.foldl Progress.step (.inside .firstItem stack)) = _
      -- the first item is read where the list may still end, the others behind a comma
      rw [foldl_firstItem, hItem, place, foldl_moreItems hItems]
      rfl
  | @object members _ ih =>
    intro stack
    cases members with
    | nil => rfl
    | cons m members =>
      obtain ⟨name, doc⟩ := m
      obtain ⟨hDoc, hMembers⟩ := List.forall_mem_cons.mp ih
      rw [Doc.lexemes, List.cons_append, List.cons_append, List.cons_append, List.foldl_cons,
        List.foldl_cons, List.foldl_cons, List.foldl_append]
      show (moreMemberLexemes members).foldl Progress.step
        (doc.lexemes.foldl Progress.step (.inside .value (.object [] name :: stack))) = _
      rw [hDoc, place, foldl_moreMembers hMembers]
      rfl

/-- Bytes with the lexemes of a whole document are that document, with nothing behind it. -/
theorem read_of_lex {bytes : List UInt8} {doc : Doc} (hWhole : doc.Whole)
    (hLex : lex bytes = doc.lexemes) : read bytes = ⟨doc, false⟩ := by
  rw [read, hLex, hWhole.reads []]
  rfl

-- ---------------------------------------------------------------------------
-- Written values
-- ---------------------------------------------------------------------------

mutual

/-- The document of a value whose numbers are integers. -/
def Value.doc : Value → Doc
  | .null => .null
  | .bool value => .bool value
  | .number (.int i) => .number (integerNumeral i)
  | .number (.float _ _) => .broken (.of .malformed)
  | .text s => .text (written s)
  | .list items => .list (itemDocs items) none
  | .object members => .object (memberDocs members) none

/-- The documents of the items of a list. -/
def itemDocs : List Value → List Doc
  | [] => []
  | item :: items => item.doc :: itemDocs items

/-- The documents of the members of an object. -/
def memberDocs : List (String × Value) → List (Spelling × Doc)
  | [] => []
  | (name, value) :: members => (written name, value.doc) :: memberDocs members

end

/-- The items of a list have their documents one by one. -/
theorem itemDocs_eq_map (items : List Value) : itemDocs items = items.map Value.doc := by
  induction items with
  | nil => rfl
  | cons item items ih => rw [itemDocs, ih, List.map_cons]

/-- The members of an object have their documents under their written names. -/
theorem memberDocs_eq_map (members : List (String × Value)) :
    memberDocs members = members.map fun m => (written m.1, m.2.doc) := by
  induction members with
  | nil => rfl
  | cons m members ih => rw [memberDocs, ih, List.map_cons]

/-- All numbers of the value are integers. -/
inductive Value.Integral : Value → Prop
  | null : Integral .null
  | bool (value : Bool) : Integral (.bool value)
  | int (i : Int) : Integral (.number (.int i))
  | text (s : String) : Integral (.text s)
  | list {items : List Value} : (∀ item ∈ items, Integral item) → Integral (.list items)
  | object {members : List (String × Value)} :
    (∀ member ∈ members, Integral member.2) → Integral (.object members)

/-- The document of a written value breaks off nowhere. -/
theorem Value.Integral.whole {v : Value} (h : v.Integral) : v.doc.Whole := by
  induction h with
  | null => exact .null
  | bool value => exact .bool value
  | int i => exact .number _
  | text s => exact .text _
  | @list items _ ih =>
    refine .list ?_
    rw [itemDocs_eq_map]
    exact List.forall_mem_map.mpr ih
  | @object members _ ih =>
    refine .object ?_
    rw [memberDocs_eq_map]
    exact List.forall_mem_map.mpr ih

/-- The written value is cut into the lexemes of its document, whatever stands behind it that does
not go on with a number. -/
def Value.Lexes (v : Value) : Prop :=
  ∀ rest, EndsNumeral rest → lex (encode v.chars ++ rest) = v.doc.lexemes ++ lex rest

/-- A mark of one byte is one lexeme. -/
theorem lex_mark {b : UInt8} {l : Lexeme} {bs : List UInt8} (hBlank : isBlank b = false)
    (hLexeme : lexeme b bs = (l, bs)) : lex (b :: bs) = l :: lex bs := by
  rw [lex_cons hBlank, hLexeme]

/-- A written string is one lexeme. -/
theorem lex_string (s : String) (rest : List UInt8) :
    lex (encode (stringChars s) ++ rest) = .text (written s) :: lex rest := by
  show lex (0x22 :: (encode (s.toList.flatMap escapedChar ++ ['"']) ++ rest)) = _
  rw [lex_cons (by decide)]
  show (textLexeme _).1 :: lex (textLexeme _).2 = _
  rw [textLexeme, spell_written]

/-- A byte that cannot go on with a number ends one. -/
theorem endsNumeral_cons {b : UInt8} (bs : List UInt8)
    (h : isDigit b = false ∧ b ≠ 0x2E ∧ b ≠ 0x65 ∧ b ≠ 0x45) : EndsNumeral (b :: bs) := by
  intro c hc
  obtain rfl : b = c := Option.some.inj hc
  exact h

/-- Behind an item stands a comma or the end of the list, and neither goes on with a number. -/
theorem endsNumeral_moreItems (items : List Value) (rest : List UInt8) :
    EndsNumeral (encode (moreItems items) ++ rest) := by
  cases items with
  | nil => exact endsNumeral_cons (b := 0x5D) _ (by decide)
  | cons item items => exact endsNumeral_cons (b := 0x2C) _ (by decide)

/-- Behind a member stands a comma or the end of the object, and neither goes on with a number. -/
theorem endsNumeral_moreMembers (members : List (String × Value)) (rest : List UInt8) :
    EndsNumeral (encode (moreMembers members) ++ rest) := by
  cases members with
  | nil => exact endsNumeral_cons (b := 0x7D) _ (by decide)
  | cons m members => exact endsNumeral_cons (b := 0x2C) _ (by decide)

/-- The items after the first are cut into their lexemes, with a comma in front of each. -/
theorem lex_moreItems {items : List Value} (h : ∀ item ∈ items, item.Lexes) (rest : List UInt8) :
    lex (encode (moreItems items) ++ rest) = moreItemLexemes (itemDocs items) ++ lex rest := by
  induction items with
  | nil => exact lex_mark (b := 0x5D) (by decide) rfl
  | cons item items ih =>
    obtain ⟨hItem, hItems⟩ := List.forall_mem_cons.mp h
    rw [moreItems, encode_append, List.append_assoc]
    show lex (0x2C :: (encode item.chars ++ (encode (moreItems items) ++ rest))) = _
    rw [lex_mark (by decide) rfl, hItem _ (endsNumeral_moreItems items rest), ih hItems, itemDocs,
      moreItemLexemes]
    simp only [List.cons_append, List.append_assoc]

/-- A member is cut into its name, a colon and the lexemes of its value. -/
theorem lex_member (name : String) {value : Value} (h : value.Lexes) {rest : List UInt8}
    (hRest : EndsNumeral rest) :
    lex (encode (stringChars name ++ ':' :: value.chars) ++ rest) =
      .text (written name) :: .colon :: value.doc.lexemes ++ lex rest := by
  rw [encode_append, List.append_assoc, lex_string]
  show _ :: lex (0x3A :: (encode value.chars ++ rest)) = _
  rw [lex_mark (by decide) rfl, h _ hRest]
  rfl

/-- The members after the first are cut into their lexemes, with a comma in front of each. -/
theorem lex_moreMembers {members : List (String × Value)} (h : ∀ m ∈ members, m.2.Lexes)
    (rest : List UInt8) :
    lex (encode (moreMembers members) ++ rest) =
      moreMemberLexemes (memberDocs members) ++ lex rest := by
  induction members with
  | nil => exact lex_mark (b := 0x7D) (by decide) rfl
  | cons m members ih =>
    obtain ⟨name, value⟩ := m
    obtain ⟨hValue, hMembers⟩ := List.forall_mem_cons.mp h
    rw [moreMembers, encode_append, List.append_assoc]
    show lex (0x2C :: (encode (stringChars name ++ ':' :: value.chars) ++
      (encode (moreMembers members) ++ rest))) = _
    rw [lex_mark (by decide) rfl, lex_member name hValue (endsNumeral_moreMembers members rest),
      ih hMembers, memberDocs, moreMemberLexemes]
    simp only [List.cons_append, List.append_assoc]

/-- **A written value is cut into the lexemes of its document.** -/
theorem Value.Integral.lexes {v : Value} (h : v.Integral) : v.Lexes := by
  -- on the value; only a number needs to know that what follows does not go on with it
  induction h with
  | null =>
    intro rest _
    show lex (0x6E :: ([0x75, 0x6C, 0x6C] ++ rest)) = _
    rw [lex_cons (by decide)]
    rfl
  | bool value =>
    intro rest _
    cases value with
    | true =>
      show lex (0x74 :: ([0x72, 0x75, 0x65] ++ rest)) = _
      rw [lex_cons (by decide)]
      rfl
    | false =>
      show lex (0x66 :: ([0x61, 0x6C, 0x73, 0x65] ++ rest)) = _
      rw [lex_cons (by decide)]
      rfl
  | int i => exact fun rest hRest => lex_integer i hRest
  | text s => exact fun rest _ => lex_string s rest
  | @list items _ ih =>
    intro rest _
    cases items with
    | nil =>
      show lex (0x5B :: 0x5D :: rest) = _
      rw [lex_mark (by decide) rfl, lex_mark (by decide) rfl]
      rfl
    | cons item items =>
      obtain ⟨hItem, hItems⟩ := List.forall_mem_cons.mp ih
      rw [Value.chars, encode_append, List.append_assoc]
      show lex (0x5B :: (encode item.chars ++ (encode (moreItems items) ++ rest))) = _
      rw [lex_mark (by decide) rfl, hItem _ (endsNumeral_moreItems items rest),
        lex_moreItems hItems, Value.doc, itemDocs, Doc.lexemes]
      simp only [List.cons_append, List.append_assoc]
  | @object members _ ih =>
    intro rest _
    cases members with
    | nil =>
      show lex (0x7B :: 0x7D :: rest) = _
      rw [lex_mark (by decide) rfl, lex_mark (by decide) rfl]
      rfl
    | cons m members =>
      obtain ⟨name, value⟩ := m
      obtain ⟨hValue, hMembers⟩ := List.forall_mem_cons.mp ih
      rw [Value.chars, encode_append, List.append_assoc]
      show lex (0x7B :: (encode (stringChars name ++ ':' :: value.chars) ++
        (encode (moreMembers members) ++ rest))) = _
      rw [lex_mark (by decide) rfl, lex_member name hValue (endsNumeral_moreMembers members rest),
        lex_moreMembers hMembers, Value.doc, memberDocs, Doc.lexemes]
      simp only [List.cons_append, List.append_assoc]

/-- **A written value is read as its document.** -/
theorem read_render {v : Value} (h : v.Integral) : read (bytes v.render) = ⟨v.doc, false⟩ := by
  have hLex : lex (bytes v.render) = v.doc.lexemes := by
    -- nothing stands behind the value, which ends a number as well
    have hAlone := h.lexes [] nofun
    rw [List.append_nil, lex, List.append_nil] at hAlone
    rw [bytes_eq_encode, Value.render, String.toList_ofList, hAlone]
  exact read_of_lex h.whole hLex

-- ---------------------------------------------------------------------------
-- One line
-- ---------------------------------------------------------------------------

/-- No character is below the blank. -/
def Printed (cs : List Char) : Prop :=
  ∀ c ∈ cs, 0x20 ≤ c.toNat

instance (cs : List Char) : Decidable (Printed cs) :=
  List.decidableBAll _ cs

/-- Printed characters may be put behind each other. -/
theorem Printed.append {cs ds : List Char} (hcs : Printed cs) (hds : Printed ds) :
    Printed (cs ++ ds) :=
  List.forall_mem_append.mpr ⟨hcs, hds⟩

/-- A printed character may be put in front. -/
theorem Printed.cons {c : Char} {cs : List Char} (hc : 0x20 ≤ c.toNat) (hcs : Printed cs) :
    Printed (c :: cs) :=
  List.forall_mem_cons.mpr ⟨hc, hcs⟩

/-- Whatever a character is, its written form is printed. -/
theorem printed_escapedChar (c : Char) : Printed (escapedChar c) := by
  have hHex : ∀ n < 0x20, Printed ['\\', 'u', '0', '0', hexChar (n / 16), hexChar (n % 16)] := by
    decide
  unfold escapedChar
  split
  -- the characters with an escape of their own are decided; the controls among the others become units
  case h_8 =>
    split
    · next hControl => exact hHex c.toNat hControl
    · next hControl => exact List.forall_mem_singleton.mpr (Nat.not_lt.mp hControl)
  all_goals decide

/-- A written string is printed. -/
theorem printed_stringChars (s : String) : Printed (stringChars s) := by
  have hChars : Printed (s.toList.flatMap escapedChar) := by
    intro c hc
    obtain ⟨d, -, hd⟩ := List.mem_flatMap.mp hc
    exact printed_escapedChar d c hd
  exact Printed.cons (by decide) (hChars.append (by decide))

/-- A natural number is printed: its digits are. -/
theorem printed_text (n : Nat) : Printed (text n).toList := by
  rw [text, String.toList_ofList, chars]
  refine List.forall_mem_map.mpr ?_
  intro d hd
  rw [toNat_digitChar d (lt_ten_of_mem_digits hd)]
  omega

/-- An integer is printed, with or without a sign. -/
theorem printed_intText (i : Int) : Printed (intText i).toList := by
  unfold intText
  split
  · rw [String.toList_append]
    exact Printed.append (by decide) (printed_text i.natAbs)
  · exact printed_text i.natAbs

/-- The items after the first are printed if each of them is. -/
theorem printed_moreItems {items : List Value} (h : ∀ item ∈ items, Printed item.chars) :
    Printed (moreItems items) := by
  induction items with
  | nil => decide
  | cons item items ih =>
    obtain ⟨hItem, hItems⟩ := List.forall_mem_cons.mp h
    exact Printed.cons (by decide) (hItem.append (ih hItems))

/-- The members after the first are printed if each of their values is. -/
theorem printed_moreMembers {members : List (String × Value)}
    (h : ∀ m ∈ members, Printed m.2.chars) : Printed (moreMembers members) := by
  induction members with
  | nil => decide
  | cons m members ih =>
    obtain ⟨name, value⟩ := m
    obtain ⟨hValue, hMembers⟩ := List.forall_mem_cons.mp h
    rw [moreMembers]
    exact Printed.cons (by decide) (((printed_stringChars name).append
      (Printed.cons (by decide) hValue)).append (ih hMembers))

/-- **A written value is one line.** -/
theorem Value.Integral.printed {v : Value} (h : v.Integral) : Printed v.chars := by
  induction h with
  | null => decide
  | bool value => cases value <;> decide
  | int i => exact printed_intText i
  | text s => exact printed_stringChars s
  | @list items _ ih =>
    cases items with
    | nil => decide
    | cons item items =>
      obtain ⟨hItem, hItems⟩ := List.forall_mem_cons.mp ih
      exact Printed.cons (by decide) (hItem.append (printed_moreItems hItems))
  | @object members _ ih =>
    cases members with
    | nil => decide
    | cons m members =>
      obtain ⟨name, value⟩ := m
      obtain ⟨hValue, hMembers⟩ := List.forall_mem_cons.mp ih
      rw [Value.chars]
      exact Printed.cons (by decide) (((printed_stringChars name).append
        (Printed.cons (by decide) hValue)).append (printed_moreMembers hMembers))

end BuildQuery.Json

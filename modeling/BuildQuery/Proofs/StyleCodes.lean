import BuildQuery.Report.Style
import Mathlib.Data.List.TakeWhile

/-!
# BuildQuery — texts without the codes of styles

A code is an escape character, a bracket, digits and an `m`. Since the escape character stands nowhere else
in a code, codes do not overlap, and what is left of a text without its codes (`withoutCodes`) can be told
piece by piece, if no piece goes on with a code that the piece before it has begun (`Breaks`). A styled text
has codes around it and behind each end of all styles inside it, so without codes it is the plain text
without codes.

Main results:

* `afterCode?_eq_some_iff` — a text that begins with a code.
* `withoutCodes_append` — a text in pieces without its codes.
* `withoutCodes_paint` — a styled text without its codes.
-/

namespace BuildQuery.Report

-- ---------------------------------------------------------------------------
-- Codes
-- ---------------------------------------------------------------------------

/-- A code: an escape character, a bracket, any number of digits and an `m`. -/
def IsCode (code : List Char) : Prop :=
  ∃ digits, (∀ d ∈ digits, d.isDigit = true) ∧ code = '\x1b' :: '[' :: digits ++ ['m']

/-- What follows a code that a text begins with. -/
def afterCode? : List Char → Option (List Char)
  | '\x1b' :: '[' :: rest =>
    match rest.dropWhile Char.isDigit with
    | 'm' :: behind => some behind
    | _ => none
  | _ => none

/-- **A text that begins with a code**: what is found behind it is what stands there. -/
theorem afterCode?_eq_some_iff {cs rest : List Char} :
    afterCode? cs = some rest ↔ ∃ code, IsCode code ∧ cs = code ++ rest := by
  constructor
  · intro h
    unfold afterCode? at h
    split at h
    · next inner =>
      split at h
      · next behind hBehind =>
        cases h
        -- the digits of the code are the ones that dropWhile passes over
        refine ⟨'\x1b' :: '[' :: inner.takeWhile Char.isDigit ++ ['m'],
          ⟨_, fun d hd => List.mem_takeWhile_imp hd, rfl⟩, ?_⟩
        have hInner := List.takeWhile_append_dropWhile (p := Char.isDigit) (l := inner)
        rw [hBehind] at hInner
        simp only [List.cons_append, List.append_assoc, List.nil_append, hInner]
      · cases h
    · cases h
  · rintro ⟨_, ⟨digits, hDigits, rfl⟩, rfl⟩
    -- the closing letter is no digit, so dropWhile stops there
    have hBehind : (digits ++ 'm' :: rest).dropWhile Char.isDigit = 'm' :: rest := by
      rw [List.dropWhile_append_of_pos hDigits, List.dropWhile_cons_of_neg (by decide)]
    simp only [List.cons_append, List.append_assoc, List.nil_append, afterCode?, hBehind]

/-- A code is passed over as a whole. -/
theorem afterCode?_code {code : List Char} (h : IsCode code) (rest : List Char) :
    afterCode? (code ++ rest) = some rest :=
  afterCode?_eq_some_iff.mpr ⟨code, h, rfl⟩

/-- A text begins with no code if none is found there. -/
theorem afterCode?_eq_none_iff {cs : List Char} :
    afterCode? cs = none ↔ ∀ code rest, IsCode code → cs ≠ code ++ rest := by
  rw [Option.eq_none_iff_forall_ne_some]
  constructor
  · intro hNone code rest hCode hBegin
    exact hNone rest (afterCode?_eq_some_iff.mpr ⟨code, hCode, hBegin⟩)
  · intro hNone rest hRest
    obtain ⟨code, hCode, hBegin⟩ := afterCode?_eq_some_iff.mp hRest
    exact hNone code rest hCode hBegin

/-- The escape character stands at the start of a code only. -/
theorem IsCode.exists_tail {code : List Char} (h : IsCode code) :
    ∃ tail, code = '\x1b' :: tail ∧ ∀ d ∈ tail, d = '[' ∨ d = 'm' ∨ d.isDigit = true := by
  obtain ⟨digits, hDigits, rfl⟩ := h
  refine ⟨'[' :: digits ++ ['m'], rfl, ?_⟩
  intro d hd
  rw [List.cons_append, List.mem_cons, List.mem_append, List.mem_singleton] at hd
  rcases hd with hBracket | hDigit | hEnd
  · exact .inl hBracket
  · exact .inr (.inr (hDigits d hDigit))
  · exact .inr (.inl hEnd)

/-- Behind its first character a code has no escape character, so no code begins inside a code. -/
theorem escape_not_mem_tail {tail : List Char}
    (h : ∀ d ∈ tail, d = '[' ∨ d = 'm' ∨ d.isDigit = true) : '\x1b' ∉ tail :=
  fun hMem => absurd (h _ hMem) (by decide)

/-- A code takes at least its escape character. -/
theorem length_of_afterCode? {cs rest : List Char} (h : afterCode? cs = some rest) :
    rest.length < cs.length := by
  obtain ⟨code, hCode, rfl⟩ := afterCode?_eq_some_iff.mp h
  obtain ⟨tail, rfl, -⟩ := hCode.exists_tail
  rw [List.length_append, List.length_cons]
  omega

/-- A text without its codes. -/
def withoutCodes : List Char → List Char
  | [] => []
  | c :: cs =>
    match _h : afterCode? (c :: cs) with
    | some rest => withoutCodes rest
    | none => c :: withoutCodes cs
termination_by cs => cs.length
decreasing_by
  · exact length_of_afterCode? ‹_›
  · exact Nat.lt_succ_self _

/-- What a style is switched on with is a code. -/
theorem isCode_code (style : Style) : IsCode style.code := by
  refine ⟨style.digits, ?_, rfl⟩
  rw [← List.all_eq_true]
  cases style <;> rfl

/-- What ends all styles is a code. -/
theorem isCode_reset : IsCode reset :=
  ⟨['0'], List.forall_mem_singleton.mpr rfl, rfl⟩

-- ---------------------------------------------------------------------------
-- Texts in pieces
-- ---------------------------------------------------------------------------

/-- A code at the start of a text is dropped. -/
theorem withoutCodes_code {code : List Char} (h : IsCode code) (rest : List Char) :
    withoutCodes (code ++ rest) = withoutCodes rest := by
  have hAfter := afterCode?_code h rest
  obtain ⟨tail, rfl, -⟩ := h.exists_tail
  rw [List.cons_append] at hAfter
  rw [List.cons_append, withoutCodes]
  split
  · next rest' hRest => rw [Option.some.inj (hRest.symm.trans hAfter)]
  · next hNone => exact absurd (hNone.symm.trans hAfter) nofun

/-- A character that begins no code is kept. -/
theorem withoutCodes_cons {c : Char} {cs : List Char} (h : afterCode? (c :: cs) = none) :
    withoutCodes (c :: cs) = c :: withoutCodes cs := by
  rw [withoutCodes]
  split
  · next rest hRest => exact absurd (hRest.symm.trans h) nofun
  · rfl

/-- A code begins with an escape character. -/
theorem afterCode?_of_ne {c : Char} (h : c ≠ '\x1b') (cs : List Char) : afterCode? (c :: cs) = none := by
  unfold afterCode?
  split
  · next hChars => exact absurd (List.cons.inj hChars).1 h
  · rfl

/-- A text without escape characters has no codes. -/
theorem withoutCodes_of_not_mem {cs : List Char} (h : '\x1b' ∉ cs) : withoutCodes cs = cs := by
  induction cs with
  | nil => rw [withoutCodes]
  | cons c cs ih =>
    have hc : c ≠ '\x1b' := (List.ne_of_not_mem_cons h).symm
    rw [withoutCodes_cons (afterCode?_of_ne hc cs), ih (List.not_mem_of_not_mem_cons h)]

/-- No code that has been begun goes on with the characters. -/
def Breaks (cs : List Char) : Prop :=
  ∀ c ∈ cs.head?, c ≠ '[' ∧ c ≠ 'm' ∧ c.isDigit = false

/-- The end of a text breaks off any code. -/
theorem breaks_nil : Breaks [] := nofun

/-- What counts is the first character. -/
theorem breaks_cons {c : Char} (h : c ≠ '[' ∧ c ≠ 'm' ∧ c.isDigit = false) (cs : List Char) :
    Breaks (c :: cs) := by
  intro d hd
  cases hd
  exact h

/-- A blank breaks off any code. -/
theorem breaks_space (cs : List Char) : Breaks (' ' :: cs) :=
  breaks_cons (by decide) cs

/-- Pieces that break off codes do so together, also when the first of them is empty. -/
theorem breaks_append {cs ds : List Char} (hcs : Breaks cs) (hds : Breaks ds) : Breaks (cs ++ ds) := by
  cases cs with
  | nil => exact hds
  | cons c cs => exact hcs

/-- Behind its first character a code goes on up to its end. -/
theorem IsCode.goes_on {code before after : List Char} (h : IsCode code)
    (hCode : code = before ++ after) (hBefore : before ≠ []) (hAfter : Breaks after) : after = [] := by
  obtain ⟨tail, rfl, hTail⟩ := h.exists_tail
  cases before with
  | nil => exact absurd rfl hBefore
  | cons c before =>
    cases after with
    | nil => rfl
    | cons d after =>
      have hMem : d ∈ tail := by
        rw [(List.cons.inj hCode).2]
        exact List.mem_append_right _ List.mem_cons_self
      obtain ⟨hBracket, hEnd, hDigit⟩ := hAfter d rfl
      rcases hTail d hMem with hd | hd | hd
      · exact absurd hd hBracket
      · exact absurd hd hEnd
      · exact absurd hd (Bool.eq_false_iff.mp hDigit)

/-- **A text in pieces without its codes.** -/
theorem withoutCodes_append (cs : List Char) {ds : List Char} (hds : Breaks ds) :
    withoutCodes (cs ++ ds) = withoutCodes cs ++ withoutCodes ds := by
  -- on what the first piece begins with: nothing, a code, or a character that is kept
  fun_induction withoutCodes cs with
  | case1 => rfl
  | case2 c cs rest hRest ih =>
    obtain ⟨code, hCode, hChars⟩ := afterCode?_eq_some_iff.mp hRest
    rw [hChars, List.append_assoc, withoutCodes_code hCode, ih]
  | case3 c cs hNone ih =>
    -- a character that begins no code in the first piece alone begins none in both pieces either
    have hStill : afterCode? (c :: cs ++ ds) = none := by
      rw [afterCode?_eq_none_iff] at hNone ⊢
      intro code rest hCode hBegin
      rcases List.append_eq_append_iff.mp hBegin with ⟨extra, hExtra, hRest⟩ | ⟨extra, hExtra, -⟩
      · -- the code goes on in the second piece, which breaks it off
        have hBreaks : Breaks extra := by
          intro d hd
          refine hds d ?_
          rw [hRest, List.head?_append, hd]
          rfl
        have hNil := hCode.goes_on hExtra (List.cons_ne_nil _ _) hBreaks
        rw [hNil, List.append_nil] at hExtra
        exact hNone code [] hCode (by rw [hExtra, List.append_nil])
      · exact hNone code extra hCode hExtra
    rw [List.cons_append] at hStill ⊢
    rw [withoutCodes_cons hStill, ih, List.cons_append]

-- ---------------------------------------------------------------------------
-- Styled texts
-- ---------------------------------------------------------------------------

/-- `resume` changes nothing up to the first escape character. -/
theorem resume_of_not_mem (code : List Char) {cs : List Char} (h : '\x1b' ∉ cs) (rest : List Char) :
    resume code (cs ++ rest) = cs ++ resume code rest := by
  induction cs with
  | nil => rfl
  | cons c cs ih =>
    have hc : c ≠ '\x1b' := (List.ne_of_not_mem_cons h).symm
    rw [List.cons_append, resume, ih (List.not_mem_of_not_mem_cons h)]
    · rfl
    · intro behind hBehind
      exact absurd hBehind hc

/-- What a styled text has before its first escape character is in the plain text. -/
theorem append_of_resume {code cs before rest : List Char} (hBefore : '\x1b' ∉ before)
    (h : resume code cs = before ++ rest) : ∃ behind, cs = before ++ behind := by
  induction before generalizing cs with
  | nil => exact ⟨cs, rfl⟩
  | cons b before ih =>
    have hb : b ≠ '\x1b' := (List.ne_of_not_mem_cons hBefore).symm
    unfold resume at h
    split at h
    · exact absurd (List.cons.inj h).1.symm hb
    · cases h
    · obtain ⟨rfl, hRest⟩ := List.cons.inj h
      obtain ⟨behind, hBehind⟩ := ih (List.not_mem_of_not_mem_cons hBefore) hRest
      exact ⟨behind, by rw [hBehind]; rfl⟩

/-- Putting a code behind each end of all styles leaves the text without its codes as it is. -/
theorem withoutCodes_resume {code : List Char} (hCode : IsCode code) (cs : List Char) :
    withoutCodes (resume code cs) = withoutCodes cs := by
  fun_induction withoutCodes cs with
  | case1 => rw [resume, withoutCodes]
  | case2 c cs rest hRest ih =>
    -- the text begins with a code: it ends all styles and `code` is put behind it, or it is left as it is
    unfold resume
    split
    · next behind hChars =>
      rw [hChars] at hRest
      have hBehind := (afterCode?_code isCode_reset behind).symm.trans hRest
      rw [List.append_assoc, withoutCodes_code isCode_reset, withoutCodes_code hCode,
        Option.some.inj hBehind, ih]
    · next hNil => cases hNil
    · next d ds hNotReset hChars =>
      cases hChars
      -- a code that does not end all styles is passed over by resume, character by character
      obtain ⟨found, hFound, hBegin⟩ := afterCode?_eq_some_iff.mp hRest
      obtain ⟨tail, rfl, hTail⟩ := hFound.exists_tail
      rw [List.cons_append] at hBegin
      obtain ⟨rfl, rfl⟩ := List.cons.inj hBegin
      rw [resume_of_not_mem code (escape_not_mem_tail hTail), ← List.cons_append,
        withoutCodes_code hFound, ih]
  | case3 c cs hNone ih =>
    unfold resume
    split
    · next behind hChars =>
      rw [hChars] at hNone
      exact absurd ((afterCode?_code isCode_reset behind).symm.trans hNone) nofun
    · next hNil => cases hNil
    · next d ds hNotReset hChars =>
      cases hChars
      -- what is put in begins with an escape character, so it cannot be the rest of a code begun before
      have hStill : afterCode? (c :: resume code cs) = none := by
        rw [afterCode?_eq_none_iff] at hNone ⊢
        intro found rest hFound hBegin
        obtain ⟨tail, rfl, hTail⟩ := hFound.exists_tail
        rw [List.cons_append] at hBegin
        obtain ⟨rfl, hResumed⟩ := List.cons.inj hBegin
        obtain ⟨behind, rfl⟩ := append_of_resume (escape_not_mem_tail hTail) hResumed
        exact hNone _ behind hFound rfl
      rw [withoutCodes_cons hStill, ih]

/-- **A styled text without its codes** is the plain text without its codes. -/
theorem withoutCodes_paint (style : Style) (ink : Ink) (s : String) :
    withoutCodes (style.paint ink s).toList = withoutCodes s.toList := by
  have hReset : withoutCodes reset = [] := by
    rw [← List.append_nil reset, withoutCodes_code isCode_reset, withoutCodes]
  have hBreaks : Breaks reset := breaks_cons (by decide) _
  unfold Style.paint
  split
  · rfl
  · rfl
  · rw [String.toList_ofList, withoutCodes_append _ hBreaks, withoutCodes_code (isCode_code style),
      withoutCodes_resume (isCode_code style), hReset, List.append_nil]

theorem breaks_paint (style : Style) (ink : Ink) {s : String} (h : Breaks s.toList) :
    Breaks (style.paint ink s).toList := by
  unfold Style.paint
  split
  · exact h
  · exact h
  · rw [String.toList_ofList]
    exact breaks_cons (by decide) _

end BuildQuery.Report

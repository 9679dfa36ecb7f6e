import BuildQuery.Remote.Base64
import Mathlib.Algebra.Group.Nat.Defs
import Mathlib.Data.List.Induction

/-!
# BuildQuery — reading base 64

Characters are read in groups of four, each as a number below 64 by its place in the alphabet. A whole
group is a number of 24 bits, which is three bytes. The last group may be filled up with one or two `=`;
then the bits that are left over behind its two or one bytes must be zero. So each list of bytes has one
text, and no other text is read.

Main results:

* `number?_eq_some_iff` — the number of a group.
* `encode_one`, `encode_two`, `encode_three` — bytes as groups.
* `decode?_encode` — bytes are read back from their characters.
* `eq_encode_of_decode?` — only the characters of bytes are read.
-/

namespace BuildQuery.Remote.Base64

-- ---------------------------------------------------------------------------
-- Reading
-- ---------------------------------------------------------------------------

/-- The characters of the numbers below 64, in order. -/
def alphabet : List Char :=
  "ABCDEFGHIJKLMNOPQRSTUVWXYZabcdefghijklmnopqrstuvwxyz0123456789+/".toList

/-- The number of a character. -/
def sextet? (c : Char) : Option Nat :=
  alphabet.idxOf? c

/-- The number with some digits in base 64. -/
def ofSextets (ns : List Nat) : Nat :=
  ns.foldl (fun n m => n * 64 + m) 0

/-- The number whose digits in base 64 are the characters. -/
def number? (cs : List Char) : Option Nat :=
  (cs.mapM sextet?).map ofSextets

/-- The bytes of characters. -/
def decode? : List Char → Option (List UInt8)
  | [] => some []
  | [a, b, '=', '='] => do
    let n ← number? [a, b]
    if n % 16 = 0 then some [UInt8.ofNat (n / 16)] else none
  | [a, b, c, '='] => do
    let n ← number? [a, b, c]
    if n % 4 = 0 then some [UInt8.ofNat (n / 1024), UInt8.ofNat (n / 4 % 256)] else none
  | a :: b :: c :: d :: rest => do
    let n ← number? [a, b, c, d]
    let bs ← decode? rest
    return UInt8.ofNat (n / 65536) :: UInt8.ofNat (n / 256 % 256) :: UInt8.ofNat (n % 256) :: bs
  | _ => none

-- ---------------------------------------------------------------------------
-- Characters and numbers
-- ---------------------------------------------------------------------------

/-- The writer has the characters of the alphabet, in its order. -/
theorem getElem?_alphabet : ∀ n < 64, alphabet[n]? = some (sextetChar n) := by
  decide +kernel

/-- The character of a number is read as the number. -/
theorem sextet?_sextetChar : ∀ n < 64, sextet? (sextetChar n) = some n := by
  decide +kernel

/-- No number has the character that fills groups up. -/
theorem sextetChar_ne_pad : ∀ n < 64, sextetChar n ≠ '=' := by
  decide +kernel

/-- A character is read as a number below 64 exactly if it is the one of the number. -/
theorem sextet?_eq_some_iff {c : Char} {n : Nat} : sextet? c = some n ↔ n < 64 ∧ c = sextetChar n := by
  constructor
  · intro h
    obtain ⟨hn, hChar, -⟩ := List.idxOf?_eq_some_iff.mp h
    have hLength : alphabet.length = 64 := by decide +kernel
    rw [hLength] at hn
    refine ⟨hn, ?_⟩
    rw [← hChar, List.getElem_eq_iff, getElem?_alphabet n hn]
  · rintro ⟨hn, rfl⟩
    exact sextet?_sextetChar n hn

/-- Characters are read as numbers below 64 exactly if they are the ones of the numbers. -/
theorem mapM_sextet?_iff {cs : List Char} {ns : List Nat} :
    cs.mapM sextet? = some ns ↔ (∀ n ∈ ns, n < 64) ∧ cs = ns.map sextetChar := by
  induction cs generalizing ns with
  | nil =>
    rw [List.mapM_nil]
    constructor
    · rintro h
      cases h
      exact ⟨List.forall_mem_nil _, rfl⟩
    · rintro ⟨-, hNil⟩
      rw [List.map_eq_nil_iff.mp hNil.symm]
      rfl
  | cons c cs ih =>
    rw [List.mapM_cons]
    constructor
    · intro h
      obtain ⟨n, hn, h⟩ := Option.bind_eq_some_iff.mp h
      obtain ⟨ms, hms, h⟩ := Option.bind_eq_some_iff.mp h
      cases h
      obtain ⟨hSmall, rfl⟩ := sextet?_eq_some_iff.mp hn
      obtain ⟨hAll, rfl⟩ := ih.mp hms
      exact ⟨List.forall_mem_cons.mpr ⟨hSmall, hAll⟩, rfl⟩
    · rintro ⟨hAll, hChars⟩
      cases ns with
      | nil => cases hChars
      | cons n ms =>
        obtain ⟨hSmall, hRest⟩ := List.forall_mem_cons.mp hAll
        obtain ⟨rfl, rfl⟩ := List.cons.inj hChars
        refine Option.bind_eq_some_iff.mpr ⟨n, sextet?_sextetChar n hSmall, ?_⟩
        exact Option.bind_eq_some_iff.mpr ⟨ms, ih.mpr ⟨hRest, rfl⟩, rfl⟩

-- ---------------------------------------------------------------------------
-- Groups
-- ---------------------------------------------------------------------------

/-- The last `k` digits of a number in base 64. -/
def sextets : Nat → Nat → List Nat
  | 0, _ => []
  | k + 1, n => sextets k (n / 64) ++ [n % 64]

/-- The characters of the last `k` digits of a number. -/
def group (k n : Nat) : List Char :=
  (sextets k n).map sextetChar

/-- Digits in base 64 are below 64. -/
theorem lt_of_mem_sextets {k n m : Nat} (h : m ∈ sextets k n) : m < 64 := by
  induction k generalizing n with
  | zero => cases h
  | succ k ih =>
    rw [sextets, List.mem_append, List.mem_singleton] at h
    rcases h with hHigh | rfl
    · exact ih hHigh
    · exact Nat.mod_lt n (by decide)

/-- One more digit at the end. -/
theorem ofSextets_concat (ns : List Nat) (m : Nat) : ofSextets (ns ++ [m]) = ofSextets ns * 64 + m := by
  rw [ofSextets, List.foldl_append]
  rfl

/-- A number of at most `k` digits is the number with its last `k` digits. -/
theorem ofSextets_sextets {k n : Nat} (h : n < 64 ^ k) : ofSextets (sextets k n) = n := by
  induction k generalizing n with
  | zero => exact (Nat.lt_one_iff.mp h).symm
  | succ k ih =>
    rw [Nat.pow_succ] at h
    rw [sextets, ofSextets_concat, ih (Nat.div_lt_of_lt_mul (Nat.mul_comm _ _ ▸ h))]
    omega

/-- Digits below 64 are the digits of their number, which is below the power of their count. -/
theorem sextets_ofSextets {ns : List Nat} (h : ∀ n ∈ ns, n < 64) :
    ofSextets ns < 64 ^ ns.length ∧ sextets ns.length (ofSextets ns) = ns := by
  -- from the last digit, which is the one that division takes off
  induction ns using List.reverseRecOn with
  | nil => exact ⟨by decide, rfl⟩
  | append_singleton ns m ih =>
    have hLast : m < 64 := h m (List.mem_append_right _ List.mem_cons_self)
    obtain ⟨hSmall, hDigits⟩ := ih fun n hn => h n (List.mem_append_left _ hn)
    have hHigh : (ofSextets ns * 64 + m) / 64 = ofSextets ns := by omega
    have hLow : (ofSextets ns * 64 + m) % 64 = m := by omega
    rw [ofSextets_concat, List.length_append, List.length_singleton, Nat.pow_succ, sextets, hHigh, hLow,
      hDigits]
    exact ⟨by omega, rfl⟩

/-- The characters of a number are read as the number. -/
theorem number?_group {k n : Nat} (h : n < 64 ^ k) : number? (group k n) = some n := by
  rw [number?, Option.map_eq_some_iff]
  exact ⟨sextets k n, mapM_sextet?_iff.mpr ⟨fun _ => lt_of_mem_sextets, rfl⟩, ofSextets_sextets h⟩

/-- **The number of characters** is the one whose digits have these characters. -/
theorem number?_eq_some_iff {cs : List Char} {n : Nat} :
    number? cs = some n ↔ n < 64 ^ cs.length ∧ cs = group cs.length n := by
  constructor
  · intro h
    obtain ⟨ns, hns, rfl⟩ := Option.map_eq_some_iff.mp h
    obtain ⟨hSmall, rfl⟩ := mapM_sextet?_iff.mp hns
    obtain ⟨hNumber, hDigits⟩ := sextets_ofSextets hSmall
    rw [List.length_map, group, hDigits]
    exact ⟨hNumber, rfl⟩
  · rintro ⟨hNumber, hGroup⟩
    have hRead := number?_group hNumber
    rwa [← hGroup] at hRead

theorem group_two (n : Nat) : group 2 n = [sextetChar (n / 64 % 64), sextetChar (n % 64)] :=
  rfl

theorem group_three (n : Nat) : group 3 n =
    [sextetChar (n / 64 / 64 % 64), sextetChar (n / 64 % 64), sextetChar (n % 64)] :=
  rfl

theorem group_four (n : Nat) : group 4 n = [sextetChar (n / 64 / 64 / 64 % 64),
    sextetChar (n / 64 / 64 % 64), sextetChar (n / 64 % 64), sextetChar (n % 64)] :=
  rfl

-- ---------------------------------------------------------------------------
-- Bytes as groups
-- ---------------------------------------------------------------------------

/-- **One byte** is a group of two characters, with four bits behind the byte that are zero. -/
theorem encode_one (a : UInt8) : encode [a] = group 2 (a.toNat * 16) ++ ['=', '='] := by
  have ha := a.toNat_lt
  have hFirst : a.toNat * 16 / 64 % 64 = a.toNat / 4 := by omega
  have hSecond : a.toNat * 16 % 64 = a.toNat % 4 * 16 := by omega
  rw [group_two, hFirst, hSecond]
  rfl

/-- **Two bytes** are a group of three characters, with two bits behind them that are zero. -/
theorem encode_two (a b : UInt8) :
    encode [a, b] = group 3 (a.toNat * 1024 + b.toNat * 4) ++ ['='] := by
  have ha := a.toNat_lt
  have hb := b.toNat_lt
  rw [group_three]
  -- each character has bits of at most two bytes
  generalize hn : a.toNat * 1024 + b.toNat * 4 = n
  have hFirst : n / 64 / 64 % 64 = a.toNat / 4 := by omega
  have hSecond : n / 64 % 64 = a.toNat % 4 * 16 + b.toNat / 16 := by omega
  have hThird : n % 64 = b.toNat % 16 * 4 := by omega
  rw [hFirst, hSecond, hThird]
  rfl

/-- **Three bytes** are a group of four characters, and the others follow. -/
theorem encode_three (a b c : UInt8) (rest : List UInt8) : encode (a :: b :: c :: rest) =
    group 4 (a.toNat * 65536 + b.toNat * 256 + c.toNat) ++ encode rest := by
  have ha := a.toNat_lt
  have hb := b.toNat_lt
  have hc := c.toNat_lt
  rw [group_four]
  generalize hn : a.toNat * 65536 + b.toNat * 256 + c.toNat = n
  have hFirst : n / 64 / 64 / 64 % 64 = a.toNat / 4 := by omega
  have hSecond : n / 64 / 64 % 64 = a.toNat % 4 * 16 + b.toNat / 16 := by omega
  have hThird : n / 64 % 64 = b.toNat % 16 * 4 + c.toNat / 64 := by omega
  have hFourth : n % 64 = c.toNat % 64 := by omega
  rw [hFirst, hSecond, hThird, hFourth]
  rfl

-- ---------------------------------------------------------------------------
-- Bytes are read back
-- ---------------------------------------------------------------------------

/-- A group of four characters that is filled up by none of them is three bytes. -/
theorem decode?_group {n : Nat} (h : n < 64 ^ 4) (rest : List Char) :
    decode? (group 4 n ++ rest) = (decode? rest).map fun bs =>
      UInt8.ofNat (n / 65536) :: UInt8.ofNat (n / 256 % 256) :: UInt8.ofNat (n % 256) :: bs := by
  have hNumber := number?_group h
  -- the last character is none that fills up, so neither of the shorter groups is read
  have hPad := sextetChar_ne_pad (n % 64) (Nat.mod_lt n (by decide))
  rw [group_four] at hNumber ⊢
  simp only [List.cons_append, List.nil_append]
  rw [decode?, hNumber]
  · cases decode? rest <;> rfl
  · intro _ hd _
    exact hPad hd
  · intro hd _
    exact hPad hd

/-- **Bytes are read back** from their characters. -/
theorem decode?_encode (bs : List UInt8) : decode? (encode bs) = some bs := by
  -- on the groups of three bytes, with one or two left over at the end
  induction bs using encode.induct with
  | case1 => rfl
  | case2 a =>
    have ha := a.toNat_lt
    have hNumber := number?_group (k := 2) (n := a.toNat * 16) (by omega)
    rw [group_two] at hNumber
    rw [encode_one, group_two]
    simp [decode?, hNumber]
  | case3 a b =>
    have ha := a.toNat_lt
    have hb := b.toNat_lt
    rw [encode_two, group_three]
    generalize hn : a.toNat * 1024 + b.toNat * 4 = n
    have hNumber := number?_group (k := 3) (n := n) (by omega)
    have hPad := sextetChar_ne_pad (n % 64) (Nat.mod_lt n (by decide))
    have hFirst : n / 1024 = a.toNat := by omega
    have hSecond : n / 4 % 256 = b.toNat := by omega
    have hRest : n % 4 = 0 := by omega
    rw [group_three] at hNumber
    simp only [List.cons_append, List.nil_append]
    rw [decode?, hNumber]
    · simp only [Option.bind_eq_bind, Option.bind_some, if_pos hRest, hFirst, hSecond, UInt8.ofNat_toNat]
    · exact hPad
  | case4 a b c rest ih =>
    have ha := a.toNat_lt
    have hb := b.toNat_lt
    have hc := c.toNat_lt
    rw [encode_three]
    generalize hn : a.toNat * 65536 + b.toNat * 256 + c.toNat = n
    have hFirst : n / 65536 = a.toNat := by omega
    have hSecond : n / 256 % 256 = b.toNat := by omega
    have hThird : n % 256 = c.toNat := by omega
    rw [decode?_group (by omega), ih, Option.map_some, hFirst, hSecond, hThird]
    simp only [UInt8.ofNat_toNat]

-- ---------------------------------------------------------------------------
-- Nothing else is read
-- ---------------------------------------------------------------------------

/-- A number below 256 is the number of its byte. -/
theorem toNat_ofNat {n : Nat} (h : n < 256) : (UInt8.ofNat n).toNat = n := by
  rw [UInt8.toNat_ofNat']
  exact Nat.mod_eq_of_lt h

/-- **Only the characters of bytes are read.** -/
theorem eq_encode_of_decode? {cs : List Char} {bs : List UInt8} (h : decode? cs = some bs) :
    cs = encode bs := by
  -- on the groups of four characters; the bits left over have to be zero, or two texts would have one list
  -- of bytes
  fun_induction decode? cs generalizing bs with
  | case1 =>
    cases h
    rfl
  | case2 a b =>
    obtain ⟨n, hNumber, h⟩ := Option.bind_eq_some_iff.mp h
    obtain ⟨hn, hGroup⟩ : n < 64 ^ 2 ∧ [a, b] = group 2 n := number?_eq_some_iff.mp hNumber
    split at h
    · next hZero =>
      cases h
      have hBytes : n / 16 * 16 = n := by omega
      rw [encode_one, toNat_ofNat (by omega), hBytes, ← hGroup]
      rfl
    · cases h
  | case3 a b c hc =>
    obtain ⟨n, hNumber, h⟩ := Option.bind_eq_some_iff.mp h
    obtain ⟨hn, hGroup⟩ : n < 64 ^ 3 ∧ [a, b, c] = group 3 n := number?_eq_some_iff.mp hNumber
    split at h
    · next hZero =>
      cases h
      have hBytes : n / 1024 * 1024 + n / 4 % 256 * 4 = n := by omega
      rw [encode_two, toNat_ofNat (by omega), toNat_ofNat (by omega), hBytes, ← hGroup]
      rfl
    · cases h
  | case4 a b c d rest hTwo hOne ih =>
    obtain ⟨n, hNumber, h⟩ := Option.bind_eq_some_iff.mp h
    obtain ⟨hn, hGroup⟩ : n < 64 ^ 4 ∧ [a, b, c, d] = group 4 n := number?_eq_some_iff.mp hNumber
    obtain ⟨later, hLater, h⟩ := Option.bind_eq_some_iff.mp h
    cases h
    have hBytes : n / 65536 * 65536 + n / 256 % 256 * 256 + n % 256 = n := by omega
    rw [encode_three, toNat_ofNat (by omega), toNat_ofNat (by omega), toNat_ofNat (by omega), hBytes,
      ← hGroup, ← ih hLater]
    rfl
  | case5 => cases h

end BuildQuery.Remote.Base64

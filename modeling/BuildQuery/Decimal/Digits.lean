/-!
# BuildQuery — decimal digits

`digits` writes a number as its decimal digits and `ofDigits` reads digits as a number; reading what
was written gives the number back (`ofDigits_digits`). All numbers that the program prints are
printed with `text`.
-/

namespace BuildQuery.Decimal

/-- The decimal digits of a number, most significant first and without leading zeros. -/
def digits (n : Nat) : List Nat :=
  if n < 10 then [n] else digits (n / 10) ++ [n % 10]

/-- The number that a list of digits stands for. -/
def ofDigits (ds : List Nat) : Nat :=
  ds.foldl (fun n d => 10 * n + d) 0

/-- The character of a digit. -/
def digitChar (d : Nat) : Char :=
  Char.ofNat ('0'.toNat + d)

/-- The characters of a number. -/
def chars (n : Nat) : List Char :=
  (digits n).map digitChar

/-- The text of a number. -/
def text (n : Nat) : String :=
  String.ofList (chars n)

/-- The text of an integer, with a sign in front of a negative one. -/
def intText (i : Int) : String :=
  if i < 0 then "-" ++ text i.natAbs else text i.natAbs

/-- The text of a number with zeros in front, up to a width. -/
def padded (width n : Nat) : String :=
  let cs := chars n
  String.ofList (List.replicate (width - cs.length) '0' ++ cs)

theorem ofDigits_concat (ds : List Nat) (d : Nat) :
    ofDigits (ds ++ [d]) = 10 * ofDigits ds + d := by
  simp [ofDigits, List.foldl_append]

/-- Reading the digits of a number gives the number. -/
theorem ofDigits_digits (n : Nat) : ofDigits (digits n) = n := by
  induction n using Nat.strongRecOn with
  | _ n ih =>
    rw [digits]
    split
    · simp [ofDigits]
    · rw [ofDigits_concat, ih (n / 10) (by omega)]
      omega

theorem lt_ten_of_mem_digits {n d : Nat} (h : d ∈ digits n) : d < 10 := by
  induction n using Nat.strongRecOn with
  | _ n ih =>
    rw [digits] at h
    split at h
    · simp only [List.mem_singleton] at h
      omega
    · simp only [List.mem_append, List.mem_singleton] at h
      rcases h with h | h
      · exact ih (n / 10) (by omega) h
      · omega

theorem digits_ne_nil (n : Nat) : digits n ≠ [] := by
  rw [digits]
  split
  · exact List.cons_ne_nil _ _
  · exact List.append_ne_nil_of_right_ne_nil _ (List.cons_ne_nil _ _)

/-- Only zero is written with a zero in front. -/
theorem eq_zero_of_digits {n : Nat} {ds : List Nat} (h : digits n = 0 :: ds) : n = 0 := by
  induction n using Nat.strongRecOn generalizing ds with
  | _ n ih =>
    rw [digits] at h
    split at h
    · exact (List.cons.inj h).1
    · next hn =>
      obtain ⟨d, front, hFront⟩ := List.exists_cons_of_ne_nil (digits_ne_nil (n / 10))
      rw [hFront, List.cons_append] at h
      obtain ⟨rfl, -⟩ := List.cons.inj h
      have hTens : n / 10 = 0 := ih (n / 10) (by omega) hFront
      omega

/-- No number is written with a zero in front of other digits. -/
theorem digits_ne_zero_cons {n d : Nat} {ds : List Nat} : digits n ≠ 0 :: d :: ds := by
  intro h
  rw [eq_zero_of_digits h, digits] at h
  simp at h

theorem toNat_digitChar : ∀ d < 10, (digitChar d).toNat = 0x30 + d := by
  decide

theorem digitChar_eq : ∀ d < 10, digitChar d = Nat.digitChar d := by
  decide

/-- The digits of a number are those that the library finds. -/
theorem chars_eq_toDigits (n : Nat) : chars n = Nat.toDigits 10 n := by
  induction n using Nat.strongRecOn with
  | _ n ih =>
    rw [chars, digits, Nat.toDigits_eq_if (by decide)]
    split
    · next hSmall => rw [List.map_singleton, digitChar_eq n hSmall]
    · rw [List.map_append, List.map_singleton, digitChar_eq _ (Nat.mod_lt n (by decide)),
        ← ih (n / 10) (by omega), chars]

/-- The text of a number is the one that the library gives. -/
theorem text_eq_toString (n : Nat) : text n = toString n := by
  rw [text, chars_eq_toDigits]
  rfl

end BuildQuery.Decimal

import TgCli.Lib.Bytes
import Mathlib.Data.List.TakeWhile
import Mathlib.Data.Nat.Digits.Defs
import Mathlib.Tactic.IntervalCases

/-!
# Numbers in C strings

`strtol` in base 10 and `atoi`, as the C library has them on a 64-bit system: leading blanks, a
sign, digits up to the first other byte; out of range, `strtol` answers with the nearest `long`,
and `atoi` cuts the `long` to 32 bits.  In the other direction, what `printf` makes of a number.
-/

namespace TgCli.Lib

open List

def isDigit (b : UInt8) : Bool :=
  0x30 ≤ b && b ≤ 0x39

def isSpace (b : UInt8) : Bool :=
  b == 0x20 || (0x09 ≤ b && b ≤ 0x0D)

def digitsVal (ds : Bytes) : ℕ :=
  ds.foldl (fun n d => 10 * n + (d.toNat - 0x30)) 0

def strtol (s : Bytes) : ℤ :=
  match s.dropWhile isSpace with
  | 0x2D :: rest => max (-(digitsVal (rest.takeWhile isDigit) : ℤ)) (-2 ^ 63)
  | 0x2B :: rest => min (digitsVal (rest.takeWhile isDigit) : ℤ) (2 ^ 63 - 1)
  | rest => min (digitsVal (rest.takeWhile isDigit) : ℤ) (2 ^ 63 - 1)

def atoi (s : Bytes) : Int32 :=
  Int32.ofInt (strtol s)

example : atoi (ascii " -12x") = -12 := by decide

/-- What stands after the blanks, with the sign taken off. -/
def unsigned (s : Bytes) : Bool × Bytes :=
  match s.dropWhile isSpace with
  | 0x2D :: rest => (true, rest)
  | 0x2B :: rest => (false, rest)
  | rest => (false, rest)

/-- What `strtol` leaves behind `end`; without a digit it is the whole string. -/
def strtolEnd (s : Bytes) : Bytes :=
  if (unsigned s).2.takeWhile isDigit = [] then s else (unsigned s).2.dropWhile isDigit

/-- The number that a string stands for as a whole: blanks, a sign, and digits to the end. -/
def numeral (s : Bytes) : Option ℤ :=
  let u := unsigned s
  if u.2 ≠ [] ∧ ∀ d ∈ u.2, isDigit d = true then
    some (if u.1 then -(digitsVal u.2 : ℤ) else digitsVal u.2)
  else none

/-- The number that a string begins with: blanks, a sign, and at least one digit. -/
def leadingNumber (s : Bytes) : Option ℤ :=
  let u := unsigned s
  let ds := u.2.takeWhile isDigit
  if ds = [] then none else some (if u.1 then -(digitsVal ds : ℤ) else digitsVal ds)

theorem strtol_eq (s : Bytes) :
    strtol s = max (-2 ^ 63) (min (2 ^ 63 - 1)
      (if (unsigned s).1 then -(digitsVal ((unsigned s).2.takeWhile isDigit) : ℤ)
        else digitsVal ((unsigned s).2.takeWhile isDigit))) := by
  rw [strtol, unsigned]
  split
  · dsimp only
    rw [if_pos rfl]
    omega
  · dsimp only
    rw [if_neg Bool.false_ne_true]
    omega
  · dsimp only
    rw [if_neg Bool.false_ne_true]
    omega

variable {s t : Bytes}

/-- `strtol` comes to the end of the string exactly on a numeral, and then it has the nearest `long`
to its value. -/
theorem strtolEnd_eq_nil_iff (h : s ≠ []) : strtolEnd s = [] ↔ (numeral s).isSome := by
  rw [strtolEnd, numeral]
  rcases hu : (unsigned s).2 with _ | ⟨d, u⟩
  · simp [h]
  · by_cases hd : isDigit d = true
    · rw [if_neg (by simp [hd])]
      simp [dropWhile_eq_nil_iff]
    · simp [h, hd]

theorem strtol_of_numeral {v : ℤ} (h : numeral s = some v) :
    strtol s = max (-2 ^ 63) (min (2 ^ 63 - 1) v) := by
  rw [numeral] at h
  split_ifs at h with hdigits hneg
  · rw [strtol_eq, takeWhile_eq_self_iff.mpr hdigits.2, if_pos hneg, ← Option.some.inj h]
  · rw [strtol_eq, takeWhile_eq_self_iff.mpr hdigits.2, if_neg hneg, ← Option.some.inj h]

theorem strtol_of_leadingNumber {v : ℤ} (h : leadingNumber s = some v) :
    strtol s = max (-2 ^ 63) (min (2 ^ 63 - 1) v) := by
  unfold leadingNumber at h
  dsimp only at h
  split_ifs at h with hnone hneg
  · rw [strtol_eq, if_pos hneg, Option.some.inj h]
  · rw [strtol_eq, if_neg hneg, Option.some.inj h]

/-- `%d` and `%lld`. -/
def decimal (n : ℤ) : Bytes :=
  ascii (toString n)

theorem decimal_natCast (n : ℕ) :
    decimal n = (Nat.toDigits 10 n).map fun c => UInt8.ofNat c.toNat := by
  rw [decimal, ascii, show toString (n : ℤ) = Nat.repr n from rfl, Nat.toList_repr]

theorem decimal_negSucc (n : ℕ) : decimal (Int.negSucc n) = 0x2D :: decimal (n + 1 : ℕ) := by
  rw [decimal_natCast, decimal, ascii,
    show toString (Int.negSucc n) = "-" ++ Nat.repr (n + 1) from rfl, String.toList_append,
    Nat.toList_repr]
  rfl

theorem isDigit_of_mem_decimal_natCast {n : ℕ} {b : UInt8} (h : b ∈ decimal n) :
    isDigit b = true := by
  rw [decimal_natCast] at h
  obtain ⟨c, hc, rfl⟩ := mem_map.mp h
  have hdigit := Nat.isDigit_of_mem_toDigits (by decide) le_rfl hc
  rw [Char.isDigit, Bool.and_eq_true, decide_eq_true_eq, decide_eq_true_eq] at hdigit
  have hlo : 48 ≤ c.toNat := hdigit.1
  have hhi : c.toNat ≤ 57 := hdigit.2
  rw [isDigit, Bool.and_eq_true, decide_eq_true_eq, decide_eq_true_eq, UInt8.le_iff_toNat_le,
    UInt8.le_iff_toNat_le, UInt8.toNat_ofNat']
  exact ⟨(by omega : 48 ≤ c.toNat % 256), (by omega : c.toNat % 256 ≤ 57)⟩

theorem mem_decimal {n : ℤ} {b : UInt8} (h : b ∈ decimal n) : b = 0x2D ∨ isDigit b = true := by
  cases n with
  | ofNat n => exact .inr (isDigit_of_mem_decimal_natCast h)
  | negSucc n =>
    rw [decimal_negSucc, mem_cons] at h
    exact h.imp id isDigit_of_mem_decimal_natCast

theorem not_mem_decimal {c : UInt8} (hc : c < 0x20) (n : ℤ) : c ∉ decimal n := by
  intro h
  obtain rfl | hdigit := mem_decimal h
  · exact absurd hc (by decide)
  · rw [isDigit, Bool.and_eq_true, decide_eq_true_eq, decide_eq_true_eq] at hdigit
    exact UInt8.not_le.mpr (UInt8.lt_of_lt_of_le hc (by decide)) hdigit.1

theorem decimal_ne_nil (n : ℤ) : decimal n ≠ [] := by
  cases n with
  | ofNat n =>
    rw [Int.ofNat_eq_natCast, decimal_natCast, Ne, map_eq_nil_iff]
    exact Nat.toDigits_ne_nil
  | negSucc n =>
    rw [decimal_negSucc]
    exact cons_ne_nil _ _

theorem decimal_of_ten_le {n : ℕ} (hn : 10 ≤ n) :
    decimal n = decimal (n / 10 : ℕ) ++ [UInt8.ofNat (n % 10).digitChar.toNat] := by
  rw [decimal_natCast, decimal_natCast, Nat.toDigits_of_base_le (by decide) hn, map_append,
    map_singleton]

theorem eq_zero_of_head_decimal (n : ℕ) (h : (decimal n).head? = some 0x30) : n = 0 := by
  induction n using Nat.strong_induction_on with
  | _ n ih =>
    rcases lt_or_ge n 10 with hn | hn
    · rw [decimal_natCast, Nat.toDigits_of_lt_base hn] at h
      interval_cases n <;> first | rfl | exact absurd h (by decide)
    · rw [decimal_of_ten_le hn, head?_append_of_ne_nil _ (decimal_ne_nil _)] at h
      have := ih (n / 10) (by omega) h
      omega

theorem digitsVal_append_digit (ds : Bytes) (d : UInt8) :
    digitsVal (ds ++ [d]) = 10 * digitsVal ds + (d.toNat - 0x30) := by
  rw [digitsVal, foldl_append]
  rfl

theorem digitsVal_decimal (n : ℕ) : digitsVal (decimal n) = n := by
  induction n using Nat.strong_induction_on with
  | _ n ih =>
    have hdigit : ∀ d < 10, (UInt8.ofNat d.digitChar.toNat).toNat - 0x30 = d := by decide
    rcases lt_or_ge n 10 with hn | hn
    · rw [decimal_natCast, Nat.toDigits_of_lt_base hn, map_singleton]
      show 10 * 0 + _ = n
      rw [hdigit n hn]
      omega
    · rw [decimal_of_ten_le hn, digitsVal_append_digit, ih (n / 10) (by omega),
        hdigit (n % 10) (by omega)]
      omega

theorem isSpace_of_isDigit {d : UInt8} (h : isDigit d = true) : isSpace d = false := by
  rw [isDigit, Bool.and_eq_true, decide_eq_true_eq, decide_eq_true_eq] at h
  rw [isSpace, Bool.or_eq_false_iff, Bool.and_eq_false_iff, decide_eq_false_iff_not,
    decide_eq_false_iff_not, beq_eq_false_iff_ne]
  refine ⟨?_, Or.inr ?_⟩
  · rintro rfl
    exact absurd h.1 (by decide)
  · intro hle
    exact absurd (UInt8.le_trans h.1 hle) (by decide)

theorem unsigned_decimal_append (n : ℤ) (t : Bytes) :
    unsigned (decimal n ++ t) = (decide (n < 0), decimal n.natAbs ++ t) := by
  cases n with
  | ofNat n =>
    rcases hds : decimal (Int.ofNat n) with _ | ⟨d, ds⟩
    · exact absurd hds (decimal_ne_nil _)
    have hdigit : isDigit d = true :=
      isDigit_of_mem_decimal_natCast (n := n) (by
        show d ∈ decimal (Int.ofNat n)
        rw [hds]
        exact mem_cons_self)
    have hspace : isSpace d = false := isSpace_of_isDigit hdigit
    have hsign : d ≠ 0x2D ∧ d ≠ 0x2B := by
      constructor <;> rintro rfl <;> exact absurd hdigit (by decide)
    rw [cons_append, unsigned, dropWhile_cons_of_neg (by rw [hspace]; decide)]
    split
    · rename_i h
      exact absurd (cons.inj h).1 hsign.1
    · rename_i h
      exact absurd (cons.inj h).1 hsign.2
    · rw [← cons_append, ← hds]
      rfl
  | negSucc n =>
    rw [decimal_negSucc, cons_append, decide_eq_true (Int.negSucc_lt_zero n),
      Int.natAbs_negSucc]
    rfl

theorem takeWhile_decimal_append (n : ℕ) (ht : ∀ d ∈ t.head?, isDigit d = false) :
    (decimal n ++ t).takeWhile isDigit = decimal n := by
  rw [takeWhile_append_of_pos fun d hd => isDigit_of_mem_decimal_natCast hd]
  rcases t with _ | ⟨d, t⟩
  · rw [takeWhile_nil, append_nil]
  · rw [takeWhile_cons_of_neg (by rw [ht d rfl]; decide), append_nil]

/-- **A number is read back** from the text that `printf` makes of it, whatever follows, if this
does not begin with a digit. -/
theorem leadingNumber_decimal_append (n : ℤ) (ht : ∀ d ∈ t.head?, isDigit d = false) :
    leadingNumber (decimal n ++ t) = some n := by
  unfold leadingNumber
  rw [unsigned_decimal_append]
  dsimp only
  rw [takeWhile_decimal_append _ ht, if_neg (decimal_ne_nil _), digitsVal_decimal]
  congr 1
  split_ifs with h <;> simp at h <;> omega

theorem strtol_decimal_append {n : ℤ} (hlo : -2 ^ 63 ≤ n) (hhi : n < 2 ^ 63)
    (ht : ∀ d ∈ t.head?, isDigit d = false) : strtol (decimal n ++ t) = n := by
  rw [strtol_of_leadingNumber (leadingNumber_decimal_append n ht)]
  omega

theorem strtol_decimal (id : Int64) : strtol (decimal id.toInt) = id.toInt := by
  have h := strtol_decimal_append id.le_toInt id.toInt_lt (t := []) fun d hd =>
    absurd hd (Option.not_mem_none d)
  rwa [append_nil] at h

theorem length_decimal_le (n : Int64) : (decimal n.toInt).length ≤ 20 := by
  have hdigits : ∀ m : ℕ, m ≤ 2 ^ 63 → (decimal m).length ≤ 19 := by
    intro m hm
    rw [decimal_natCast, length_map]
    exact Nat.toDigits_length 10 m 19 (by decide) (lt_of_le_of_lt hm (by decide))
  have hlo := n.le_toInt
  have hhi := n.toInt_lt
  cases hn : n.toInt with
  | ofNat m =>
    rw [Int.ofNat_eq_natCast] at hn ⊢
    have := hdigits m (by omega)
    omega
  | negSucc m =>
    rw [decimal_negSucc, length_cons]
    have := hdigits (m + 1) (by omega)
    omega

def hexDigit (d : ℕ) : UInt8 :=
  UInt8.ofNat (if d < 10 then 0x30 + d else 0x57 + d)

/-- `%08x`. -/
def hex8 (n : UInt32) : Bytes :=
  (List.range 8).map fun i => hexDigit (n.toNat / 16 ^ (7 - i) % 16)

example : hex8 0x0aadfc8f = ascii "0aadfc8f" := by decide

/-- `%04x` of a number below `16 ^ 4`. -/
def hex4 (n : ℕ) : Bytes :=
  (List.range 4).map fun i => hexDigit (n / 16 ^ (3 - i) % 16)

/-- `snprintf` into `cap` bytes: what does not fit is cut off. -/
def snprintf (cap : ℕ) (s : Bytes) : Bytes :=
  s.take (cap - 1)

end TgCli.Lib

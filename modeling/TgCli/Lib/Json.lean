import TgCli.Lib.Decimal

/-!
# JSON texts

The grammar of JSON as a relation: `Value v b r` says that `b` begins with a text of the value `v`
and goes on with `r`.  A text is a byte string, and a byte from `0x80` up is a character like any
other; the string that a literal stands for is again a byte string, with `\u` escapes in UTF-8.
`IsText v b` says that `b` is a text of `v` and of nothing else around it but blanks.

A program that assembles JSON by hand puts a string between two quotes.  What it prints is a text of
the intended value only if the string has no quote, no backslash and no control character
(`body_self_iff`): with any of them the literal may end somewhere else, and then it may still be a
literal of some string, but not of this one.  The reason is that reading never makes a string
longer, so a literal that has used up an escape must reach beyond the closing quote, and for that
the quote must be escaped.  This needs that what follows is not itself full of escapes (`Calm`).

A `Piece` carries the law of one printed piece in front of any calm remainder: it is read as its
value exactly if a condition holds, and the reader then stands at the remainder.  Objects and arrays
are put together from pieces (`Piece.object`, `Piece.array`), and the condition of the whole is the
conjunction of the conditions.
-/

namespace TgCli.Lib

open List

/-- A JSON value.  A number is kept as it is written. -/
inductive Json where
  | null
  | bool (b : Bool)
  | num (text : Bytes)
  | str (s : Bytes)
  | arr (vs : List Json)
  | obj (ms : List (Bytes × Json))

namespace Json

/-! ## The grammar -/

def isWs (c : UInt8) : Bool :=
  c == 0x20 || c == 0x09 || c == 0x0A || c == 0x0D

/-- Some blanks, and then `r`. -/
def Ws (b r : Bytes) : Prop :=
  ∃ w, b = w ++ r ∧ ∀ c ∈ w, isWs c = true

/-- A number: a sign, digits without leading zeros, a fraction and an exponent. -/
structure IsNumber (l : Bytes) : Prop where
  parts : ∃ sign int frac exp, l = sign ++ (int ++ (frac ++ exp)) ∧
    (sign = [] ∨ sign = [0x2D]) ∧
    (int ≠ [] ∧ (∀ d ∈ int, isDigit d = true) ∧ (int.head? = some 0x30 → int = [0x30])) ∧
    (frac = [] ∨ ∃ ds, frac = 0x2E :: ds ∧ ds ≠ [] ∧ ∀ d ∈ ds, isDigit d = true) ∧
    (exp = [] ∨ ∃ e s ds, exp = e :: (s ++ ds) ∧ (e = 0x65 ∨ e = 0x45) ∧
      (s = [] ∨ s = [0x2B] ∨ s = [0x2D]) ∧ ds ≠ [] ∧ ∀ d ∈ ds, isDigit d = true)

def hexVal (c : UInt8) : Option ℕ :=
  if 0x30 ≤ c ∧ c ≤ 0x39 then some (c.toNat - 0x30)
  else if 0x61 ≤ c ∧ c ≤ 0x66 then some (c.toNat - 0x57)
  else if 0x41 ≤ c ∧ c ≤ 0x46 then some (c.toNat - 0x37)
  else none

def hexUnit (a b c d : UInt8) : Option ℕ := do
  let a ← hexVal a
  let b ← hexVal b
  let c ← hexVal c
  let d ← hexVal d
  return ((a * 16 + b) * 16 + c) * 16 + d

def utf8 (n : ℕ) : Bytes :=
  if n < 0x80 then [UInt8.ofNat n]
  else if n < 0x800 then [UInt8.ofNat (0xC0 + n / 64), UInt8.ofNat (0x80 + n % 64)]
  else if n < 0x10000 then
    [UInt8.ofNat (0xE0 + n / 4096), UInt8.ofNat (0x80 + n / 64 % 64), UInt8.ofNat (0x80 + n % 64)]
  else
    [UInt8.ofNat (0xF0 + n / 262144), UInt8.ofNat (0x80 + n / 4096 % 64),
      UInt8.ofNat (0x80 + n / 64 % 64), UInt8.ofNat (0x80 + n % 64)]

/-- The escapes of one letter, by the byte after the backslash. -/
def shortEscape (c : UInt8) : Option UInt8 :=
  if c = 0x22 then some 0x22
  else if c = 0x5C then some 0x5C
  else if c = 0x2F then some 0x2F
  else if c = 0x62 then some 0x08
  else if c = 0x66 then some 0x0C
  else if c = 0x6E then some 0x0A
  else if c = 0x72 then some 0x0D
  else if c = 0x74 then some 0x09
  else none

/-- What may follow a backslash, with the bytes it stands for.  Half of a surrogate pair stands for
no character. -/
inductive Escape : Bytes → Bytes → Prop
  | short {c x : UInt8} : shortEscape c = some x → Escape [c] [x]
  | unit {a b c d : UInt8} {n : ℕ} : hexUnit a b c d = some n → (n < 0xD800 ∨ 0xE000 ≤ n) →
      Escape [0x75, a, b, c, d] (utf8 n)
  | pair {a b c d a' b' c' d' : UInt8} {hi lo : ℕ} : hexUnit a b c d = some hi →
      (0xD800 ≤ hi ∧ hi < 0xDC00) → hexUnit a' b' c' d' = some lo →
      (0xDC00 ≤ lo ∧ lo < 0xE000) →
      Escape [0x75, a, b, c, d, 0x5C, 0x75, a', b', c', d']
        (utf8 (0x10000 + (hi - 0xD800) * 0x400 + (lo - 0xDC00)))

def isPlain (c : UInt8) : Bool :=
  0x20 ≤ c && c != 0x22 && c != 0x5C

/-- `Body s b r`: after an opening quote, `b` is a literal of `s` with its closing quote, and then
`r`. -/
inductive Body : Bytes → Bytes → Bytes → Prop
  | close (r : Bytes) : Body [] (0x22 :: r) r
  | char {c : UInt8} {s b r : Bytes} : isPlain c = true → Body s b r → Body (c :: s) (c :: b) r
  | escape {u x s b r : Bytes} : Escape u x → Body s b r → Body (x ++ s) (0x5C :: (u ++ b)) r

/-- Items separated by commas up to a closing bracket, after at least one item. -/
inductive More {α : Type} (P : α → Bytes → Bytes → Prop) (close : UInt8) :
    List α → Bytes → Bytes → Prop
  | close {b r : Bytes} : Ws b (close :: r) → More P close [] b r
  | next {x : α} {xs : List α} {b b' b'' r : Bytes} : Ws b (0x2C :: b') → P x b' b'' →
      More P close xs b'' r → More P close (x :: xs) b r

/-- The inside of a pair of brackets, with the closing one. -/
inductive Items {α : Type} (P : α → Bytes → Bytes → Prop) (close : UInt8) :
    List α → Bytes → Bytes → Prop
  | none {b r : Bytes} : Ws b (close :: r) → Items P close [] b r
  | some {x : α} {xs : List α} {b b' r : Bytes} : P x b b' → More P close xs b' r →
      Items P close (x :: xs) b r

inductive Member (P : Json → Bytes → Bytes → Prop) : Bytes × Json → Bytes → Bytes → Prop
  | mk {k : Bytes} {v : Json} {b b₁ b₂ b₃ r : Bytes} : Ws b (0x22 :: b₁) → Body k b₁ b₂ →
      Ws b₂ (0x3A :: b₃) → P v b₃ r → Member P (k, v) b r

def truth (x : Bool) : Bytes :=
  ascii (if x then "true" else "false")

/-- `b` begins with a text of the value, and goes on with `r`. -/
inductive Value : Json → Bytes → Bytes → Prop
  | null {b r : Bytes} : Ws b (ascii "null" ++ r) → Value null b r
  | bool {x : Bool} {b r : Bytes} : Ws b (truth x ++ r) → Value (bool x) b r
  | num {l b r : Bytes} : IsNumber l → Ws b (l ++ r) → Value (num l) b r
  | str {s b b' r : Bytes} : Ws b (0x22 :: b') → Body s b' r → Value (str s) b r
  | arr {vs : List Json} {b b' r : Bytes} : Ws b (0x5B :: b') → Items Value 0x5D vs b' r →
      Value (arr vs) b r
  | obj {ms : List (Bytes × Json)} {b b' r : Bytes} : Ws b (0x7B :: b') →
      Items (Member Value) 0x7D ms b' r → Value (obj ms) b r

def IsText (v : Json) (b : Bytes) : Prop :=
  ∃ r, Value v b r ∧ Ws r []

/-- A sequence of texts, each on a line of its own. -/
inductive IsLines : List Json → Bytes → Prop
  | nil : IsLines [] []
  | cons {v : Json} {vs : List Json} {line b : Bytes} : 0x0A ∉ line → IsText v line →
      IsLines vs b → IsLines (v :: vs) (line ++ 0x0A :: b)

/-! ## Blanks -/

theorem ws_refl (b : Bytes) : Ws b b :=
  ⟨[], rfl, fun _ h => absurd h not_mem_nil⟩

variable {c d : UInt8} {b r s u x tail : Bytes}

theorem ws_cons_iff (hc : isWs c = false) (hd : isWs d = false) :
    Ws (c :: b) (d :: r) ↔ c = d ∧ b = r := by
  constructor
  · rintro ⟨w, hw, hws⟩
    cases w with
    | nil => exact cons.inj hw
    | cons x w =>
      rw [cons_append] at hw
      have hx := hws x mem_cons_self
      rw [← (cons.inj hw).1, hc] at hx
      exact absurd hx Bool.false_ne_true
  · rintro ⟨rfl, rfl⟩
    exact ws_refl _

theorem ws_append_iff {l : Bytes} (hc : isWs c = false) :
    Ws (c :: l ++ tail) (c :: l ++ r) ↔ r = tail := by
  rw [cons_append, cons_append, ws_cons_iff hc hc, append_cancel_left_eq,
    and_iff_right rfl, eq_comm]

/-! ## String literals -/

theorem length_utf8_le (n : ℕ) : (utf8 n).length ≤ 4 := by
  rw [utf8]
  split_ifs <;> simp

theorem Escape.length_le (h : Escape u x) : x.length ≤ u.length := by
  cases h with
  | short _ => exact le_rfl
  | unit _ _ => exact (length_utf8_le _).trans (by simp)
  | pair _ _ _ _ => exact (length_utf8_le _).trans (by simp)

theorem hexVal_quote : hexVal 0x22 = none := by decide

theorem ne_quote_of_hexUnit {a b : UInt8} {n : ℕ} (h : hexUnit a b c d = some n) :
    a ≠ 0x22 ∧ b ≠ 0x22 ∧ c ≠ 0x22 ∧ d ≠ 0x22 := by
  simp only [hexUnit, Option.bind_eq_bind, Option.bind_eq_some_iff] at h
  obtain ⟨_, ha, _, hb, _, hc, _, hd, _⟩ := h
  refine ⟨?_, ?_, ?_, ?_⟩ <;> rintro rfl
  · exact absurd ha (by simp [hexVal_quote])
  · exact absurd hb (by simp [hexVal_quote])
  · exact absurd hc (by simp [hexVal_quote])
  · exact absurd hd (by simp [hexVal_quote])

theorem Escape.eq_quote (h : Escape u x) (hu : 0x22 ∈ u) :
    u = [0x22] ∧ x = [0x22] := by
  cases h with
  | @short c x hc =>
    obtain rfl : 0x22 = c := mem_singleton.mp hu
    exact ⟨rfl, congrArg (fun y => [y]) (Option.some.inj hc).symm⟩
  | unit hn _ =>
    obtain ⟨ha, hb, hc, hd⟩ := ne_quote_of_hexUnit hn
    simp [ha.symm, hb.symm, hc.symm, hd.symm] at hu
  | pair hn _ hn' _ =>
    obtain ⟨ha, hb, hc, hd⟩ := ne_quote_of_hexUnit hn
    obtain ⟨ha', hb', hc', hd'⟩ := ne_quote_of_hexUnit hn'
    simp [ha.symm, hb.symm, hc.symm, hd.symm, ha'.symm, hb'.symm, hc'.symm, hd'.symm] at hu

theorem Escape.unique {u' x' b' : Bytes} (h : Escape u x) (h' : Escape u' x')
    (heq : u ++ b = u' ++ b') : x = x' ∧ b = b' := by
  have hu : shortEscape 0x75 = none := by decide
  cases h with
  | short hc =>
    cases h' with
    | short hc' =>
      obtain ⟨rfl, rfl⟩ := cons.inj heq
      rw [hc] at hc'
      exact ⟨congrArg (fun y => [y]) (Option.some.inj hc'), rfl⟩
    | unit _ _ =>
      rw [(cons.inj heq).1, hu] at hc
      cases hc
    | pair _ _ _ _ =>
      rw [(cons.inj heq).1, hu] at hc
      cases hc
  | unit hn hlt =>
    cases h' with
    | short hc' =>
      rw [← (cons.inj heq).1, hu] at hc'
      cases hc'
    | unit hn' _ =>
      obtain ⟨rfl, rfl, rfl, rfl, rfl⟩ := heq
      rw [hn] at hn'
      exact ⟨congrArg utf8 (Option.some.inj hn'), rfl⟩
    | pair hn' hhi _ _ =>
      obtain ⟨rfl, rfl, rfl, rfl, -⟩ := heq
      rw [hn] at hn'
      cases hn'
      omega
  | pair hn hhi hlo _ =>
    cases h' with
    | short hc' =>
      rw [← (cons.inj heq).1, hu] at hc'
      cases hc'
    | unit hn' hlt =>
      obtain ⟨rfl, rfl, rfl, rfl, -⟩ := heq
      rw [hn] at hn'
      cases hn'
      omega
    | pair hn' _ hlo' _ =>
      obtain ⟨rfl, rfl, rfl, rfl, rfl, rfl, rfl, rfl, rfl⟩ := heq
      rw [hn] at hn'
      rw [hlo] at hlo'
      cases hn'
      cases hlo'
      exact ⟨rfl, rfl⟩

theorem isPlain_iff : isPlain c = true ↔ 0x20 ≤ c ∧ c ≠ 0x22 ∧ c ≠ 0x5C := by
  simp [isPlain, and_assoc]

theorem body_cons_iff :
    Body s (c :: b) r ↔
      (c = 0x22 ∧ s = [] ∧ r = b) ∨ (isPlain c = true ∧ ∃ s', s = c :: s' ∧ Body s' b r) ∨
        (c = 0x5C ∧ ∃ u x b' s', b = u ++ b' ∧ Escape u x ∧ s = x ++ s' ∧ Body s' b' r) := by
  constructor
  · intro h
    cases h with
    | close => exact .inl ⟨rfl, rfl, rfl⟩
    | char hc h => exact .inr (.inl ⟨hc, _, rfl, h⟩)
    | escape he h => exact .inr (.inr ⟨rfl, _, _, _, _, rfl, he, rfl, h⟩)
  · rintro (⟨rfl, rfl, rfl⟩ | ⟨hc, s', rfl, h⟩ | ⟨rfl, u, x, b', s', rfl, he, rfl, h⟩)
    · exact .close _
    · exact .char hc h
    · exact .escape he h

theorem Body.unique {s' r' : Bytes} (h : Body s b r) (h' : Body s' b r') :
    s = s' ∧ r = r' := by
  induction h generalizing s' with
  | close r =>
    rcases body_cons_iff.mp h' with ⟨-, rfl, rfl⟩ | ⟨hc, -⟩ | ⟨hc, -⟩
    · exact ⟨rfl, rfl⟩
    · exact absurd hc (by decide)
    · exact absurd hc (by decide)
  | char hc h ih =>
    obtain ⟨-, hq, hb⟩ := isPlain_iff.mp hc
    rcases body_cons_iff.mp h' with ⟨hc', -⟩ | ⟨-, s'', rfl, h''⟩ | ⟨hc', -⟩
    · exact absurd hc' hq
    · obtain ⟨rfl, rfl⟩ := ih h''
      exact ⟨rfl, rfl⟩
    · exact absurd hc' hb
  | escape he h ih =>
    rcases body_cons_iff.mp h' with ⟨hc', -⟩ | ⟨hc', -⟩ | ⟨-, u', x', b', s'', hu, he', rfl, h''⟩
    · exact absurd hc' (by decide)
    · exact absurd hc' (by decide)
    · obtain ⟨rfl, rfl⟩ := he.unique he' hu
      obtain ⟨rfl, rfl⟩ := ih h''
      exact ⟨rfl, rfl⟩

/-! ## A string between quotes -/

/-- A string all of whose bytes stand for themselves. -/
def Clean (s : Bytes) : Prop :=
  ∀ c ∈ s, isPlain c = true

instance (s : Bytes) : Decidable (Clean s) :=
  inferInstanceAs (Decidable (∀ c ∈ s, isPlain c = true))

/-- Up to its first quote, there is no backslash. -/
def Calm (b : Bytes) : Prop :=
  0x5C ∉ b.takeWhile (· ≠ 0x22)

instance (b : Bytes) : Decidable (Calm b) :=
  inferInstanceAs (Decidable (0x5C ∉ b.takeWhile (· ≠ 0x22)))

theorem calm_quote (b : Bytes) : Calm (0x22 :: b) := by
  simp [Calm]

theorem calm_cons (hc : c ≠ 0x22) :
    Calm (c :: b) ↔ c ≠ 0x5C ∧ Calm b := by
  simp [Calm, hc, eq_comm]

theorem calm_append {p : Bytes} (hq : 0x22 ∉ p) (hp : 0x5C ∉ p) (hb : Calm b) :
    Calm (p ++ b) := by
  induction p with
  | nil => exact hb
  | cons c p ih =>
    rw [mem_cons, not_or] at hq hp
    exact (calm_cons (Ne.symm hq.1)).mpr ⟨Ne.symm hp.1, ih hq.2 hp.2⟩

theorem body_of_clean (h : Clean s) (tail : Bytes) :
    Body s (s ++ 0x22 :: tail) tail := by
  induction s with
  | nil => exact .close tail
  | cons c s ih =>
    obtain ⟨hc, hs⟩ := forall_mem_cons.mp h
    exact .char hc (ih hs)

theorem Body.no_backslash (h : Body s b r) (hb : Calm b) : 0x5C ∉ s := by
  induction h with
  | close r => exact not_mem_nil
  | char hc _ ih =>
    obtain ⟨-, hq, hne⟩ := isPlain_iff.mp hc
    rw [mem_cons, not_or]
    exact ⟨hne.symm, ih ((calm_cons hq).mp hb).2⟩
  | escape _ _ _ => exact absurd rfl ((calm_cons (by decide)).mp hb).1

/-- An escape that begins within a string between quotes ends within it, or it is the escape of the
closing quote. -/
theorem Escape.split {t : Bytes} (h : Escape u x) (hb : t ++ 0x22 :: tail = u ++ b) :
    (∃ t', t = u ++ t' ∧ b = t' ++ 0x22 :: tail) ∨ t = [] ∧ x = [0x22] ∧ b = tail := by
  rcases append_eq_append_iff.mp hb with ⟨v, rfl, hv⟩ | ⟨t', rfl, rfl⟩
  · cases v with
    | nil => exact .inl ⟨[], by simp, hv.symm⟩
    | cons q v =>
      obtain ⟨rfl, rfl⟩ := cons.inj hv
      obtain ⟨hu, rfl⟩ := h.eq_quote (by simp)
      have hlen : t.length + (v.length + 1) = 1 := by simpa using congrArg length hu
      obtain rfl := length_eq_zero_iff.mp (by omega : t.length = 0)
      obtain rfl := length_eq_zero_iff.mp (by omega : v.length = 0)
      exact .inr ⟨rfl, rfl, rfl⟩
  · exact .inl ⟨t', rfl, rfl⟩

/-- The literal that begins with the bytes of `t` does not stand for a longer string that ends with
`t`, and for `t` itself only if all of `t` is plain.  The induction is on the length of `t`: an
escape gives fewer bytes than it takes, and leaves a longer string to be read from the rest. -/
theorem clean_of_body (htail : Calm tail) (n : ℕ) (w t r : Bytes) (hn : t.length ≤ n)
    (h : Body (w ++ t) (t ++ 0x22 :: tail) r) : w = [] ∧ Clean t := by
  induction n generalizing w t with
  | zero =>
    obtain rfl := length_eq_zero_iff.mp (Nat.le_zero.mp hn)
    have hw := (h.unique (.close tail)).1
    rw [append_nil] at hw
    exact ⟨hw, fun _ hc => absurd hc not_mem_nil⟩
  | succ n ih =>
    cases t with
    | nil => exact ih w [] (Nat.zero_le n) h
    | cons c t =>
      rw [length_cons] at hn
      rw [cons_append] at h
      rcases body_cons_iff.mp h with ⟨-, hs, -⟩ | ⟨hc, s', hs, h'⟩ |
        ⟨rfl, u, x, b', s', hb, he, hs, h'⟩
      · exact absurd hs (by simp)
      · cases w with
        | nil =>
          obtain rfl := (cons.inj hs).2
          exact ⟨rfl, forall_mem_cons.mpr ⟨hc, (ih [] t (by omega) h').2⟩⟩
        | cons a w =>
          have hs' : s' = w ++ [c] ++ t := by simpa using (cons.inj hs).2.symm
          rw [hs'] at h'
          exact absurd (ih _ t (by omega) h').1 (by simp)
      · exfalso
        rcases he.split hb with ⟨t', rfl, rfl⟩ | ⟨rfl, rfl, rfl⟩
        · have hshort := he.length_le
          rw [show w ++ 0x5C :: (u ++ t') = (w ++ 0x5C :: u) ++ t' by simp] at hs
          rw [length_append] at hn
          rcases append_eq_append_iff.mp hs with ⟨v, rfl, -⟩ | ⟨v, hv, rfl⟩
          · simp only [length_append, length_cons] at hshort
            omega
          · have hv' := (ih v t' (by omega) h').1
            have hlen := congrArg length hv
            simp only [hv', length_append, length_cons, length_nil] at hlen
            omega
        · have hmem : (0x5C : UInt8) ∈ [0x22] ++ s' := hs ▸ by simp
          rw [mem_append, mem_singleton] at hmem
          exact hmem.elim (by decide) (h'.no_backslash htail)

/-- **A string between quotes is a literal of itself exactly if it is plain.** -/
theorem body_self_iff (htail : Calm tail) :
    Body s (s ++ 0x22 :: tail) r ↔ Clean s ∧ r = tail := by
  constructor
  · intro h
    have hs := (clean_of_body htail s.length [] s r le_rfl h).2
    exact ⟨hs, (h.unique (body_of_clean hs tail)).2⟩
  · rintro ⟨hs, rfl⟩
    exact body_of_clean hs r

/-! ## Printed pieces -/

/-- A printed piece: its text, what it should be read as, and when it is.  In front of a calm
remainder it is read as its value exactly under the condition, and the reader then stands at the
remainder. -/
structure Piece {α : Type} (P : α → Bytes → Bytes → Prop) where
  text : Bytes
  value : α
  cond : Prop
  reads : ∀ {tail r : Bytes}, Calm tail → (P value (text ++ tail) r ↔ cond ∧ r = tail)
  calm : ∀ {tail : Bytes}, Calm tail → Calm (text ++ tail)

/-- The text of the items after the first, with the closing bracket. -/
def moreText (close : UInt8) : List Bytes → Bytes
  | [] => [close]
  | t :: ts => 0x2C :: (t ++ moreText close ts)

def itemsText (close : UInt8) : List Bytes → Bytes
  | [] => [close]
  | t :: ts => t ++ moreText close ts

/-- A closing bracket is none of the bytes that the reader could take for something else. -/
structure IsBracket (c : UInt8) : Prop where
  ws : isWs c = false
  comma : c ≠ 0x2C
  quote : c ≠ 0x22
  backslash : c ≠ 0x5C

theorem isBracket_brace : IsBracket 0x7D := ⟨by decide, by decide, by decide, by decide⟩

theorem isBracket_square : IsBracket 0x5D := ⟨by decide, by decide, by decide, by decide⟩

section Pieces

variable {α : Type} {P : α → Bytes → Bytes → Prop} {close : UInt8}

variable {r tail : Bytes}

theorem calm_moreText (hclose : IsBracket close) (ps : List (Piece P))
    (htail : Calm tail) : Calm (moreText close (ps.map Piece.text) ++ tail) := by
  induction ps with
  | nil => exact (calm_cons hclose.quote).mpr ⟨hclose.backslash, htail⟩
  | cons p ps ih =>
    rw [map_cons, moreText, cons_append, append_assoc, calm_cons (by decide)]
    exact ⟨by decide, p.calm ih⟩

theorem more_iff (hclose : IsBracket close) (ps : List (Piece P)) (htail : Calm tail) :
    More P close (ps.map Piece.value) (moreText close (ps.map Piece.text) ++ tail) r ↔
      (∀ p ∈ ps, p.cond) ∧ r = tail := by
  induction ps with
  | nil =>
    rw [and_iff_right fun p hp => absurd hp not_mem_nil]
    constructor
    · rintro (hws | -)
      exact ((ws_cons_iff hclose.ws hclose.ws).mp hws).2.symm
    · rintro rfl
      exact .close (ws_refl _)
  | cons p ps ih =>
    have hcalm := calm_moreText hclose ps htail
    rw [map_cons, map_cons, moreText, cons_append, append_assoc,
      forall_mem_cons, and_assoc, ← ih]
    constructor
    · rintro (- | ⟨hws, hp, hmore⟩)
      obtain ⟨-, rfl⟩ := (ws_cons_iff (by decide) (by decide)).mp hws
      obtain ⟨hcond, rfl⟩ := (p.reads hcalm).mp hp
      exact ⟨hcond, hmore⟩
    · rintro ⟨hcond, hmore⟩
      exact .next (ws_refl _) ((p.reads hcalm).mpr ⟨hcond, rfl⟩) hmore

theorem calm_itemsText (hclose : IsBracket close) (ps : List (Piece P))
    (htail : Calm tail) : Calm (itemsText close (ps.map Piece.text) ++ tail) := by
  cases ps with
  | nil => exact (calm_cons hclose.quote).mpr ⟨hclose.backslash, htail⟩
  | cons p ps =>
    rw [map_cons, itemsText, append_assoc]
    exact p.calm (calm_moreText hclose ps htail)

theorem items_iff (hclose : IsBracket close) (ps : List (Piece P)) (htail : Calm tail) :
    Items P close (ps.map Piece.value) (itemsText close (ps.map Piece.text) ++ tail) r ↔
      (∀ p ∈ ps, p.cond) ∧ r = tail := by
  cases ps with
  | nil =>
    rw [and_iff_right fun p hp => absurd hp not_mem_nil]
    constructor
    · rintro (hws | -)
      exact ((ws_cons_iff hclose.ws hclose.ws).mp hws).2.symm
    · rintro rfl
      exact .none (ws_refl _)
  | cons p ps =>
    have hcalm := calm_moreText hclose ps htail
    rw [map_cons, map_cons, itemsText, append_assoc, forall_mem_cons, and_assoc,
      ← more_iff hclose ps htail]
    constructor
    · rintro (- | ⟨hp, hmore⟩)
      obtain ⟨hcond, rfl⟩ := (p.reads hcalm).mp hp
      exact ⟨hcond, hmore⟩
    · rintro ⟨hcond, hmore⟩
      exact .some ((p.reads hcalm).mpr ⟨hcond, rfl⟩) hmore

end Pieces

/-! ## Numbers and truth values -/

theorem isNumber_decimal (n : ℤ) : IsNumber (decimal n) := by
  have hint : ∀ m : ℕ, decimal m ≠ [] ∧ (∀ d ∈ decimal m, isDigit d = true) ∧
      ((decimal m).head? = some 0x30 → decimal m = [0x30]) := by
    refine fun m => ⟨decimal_ne_nil m, fun d hd => isDigit_of_mem_decimal_natCast hd, fun h => ?_⟩
    rw [eq_zero_of_head_decimal m h]
    decide
  cases n with
  | ofNat m =>
    exact ⟨[], decimal m, [], [], by simp, .inl rfl, hint m, .inl rfl, .inl rfl⟩
  | negSucc m =>
    refine ⟨[0x2D], decimal (m + 1 : ℕ), [], [], ?_, .inr rfl, hint (m + 1), .inl rfl, .inl rfl⟩
    rw [decimal_negSucc, append_nil, append_nil, singleton_append]

theorem number_of_mem_decimal {n : ℤ} (h : c ∈ decimal n) :
    isWs c = false ∧ c ≠ 0x22 ∧ c ≠ 0x5C := by
  rcases mem_decimal h with rfl | hc
  · decide
  · rw [isDigit, Bool.and_eq_true, decide_eq_true_eq, decide_eq_true_eq] at hc
    obtain ⟨hlo, hhi⟩ := hc
    refine ⟨?_, ?_, ?_⟩
    · rw [isWs, Bool.or_eq_false_iff, Bool.or_eq_false_iff, Bool.or_eq_false_iff]
      simp only [beq_eq_false_iff_ne]
      refine ⟨⟨⟨?_, ?_⟩, ?_⟩, ?_⟩ <;> rintro rfl <;> exact absurd hlo (by decide)
    · rintro rfl
      exact absurd hlo (by decide)
    · rintro rfl
      exact absurd hhi (by decide)

namespace Piece

/-- A word without quotes and backslashes that begins with something other than a blank. -/
@[simps] def word (l : Bytes) (v : Json) (hne : l ≠ [])
    (hl : ∀ c ∈ l, isWs c = false ∧ c ≠ 0x22 ∧ c ≠ 0x5C)
    (hv : ∀ {b r : Bytes}, Value v b r ↔ Ws b (l ++ r)) : Piece Value where
  text := l
  value := v
  cond := True
  reads := by
    intro tail r _
    rw [hv, true_and]
    cases l with
    | nil => exact absurd rfl hne
    | cons c l => exact ws_append_iff (hl c List.mem_cons_self).1
  calm := calm_append (fun h => (hl _ h).2.1 rfl) (fun h => (hl _ h).2.2 rfl)

def number (n : ℤ) : Piece Value :=
  word (decimal n) (.num (decimal n)) (decimal_ne_nil n) (fun _ => number_of_mem_decimal) <| by
    intro b r
    exact ⟨fun h => by cases h; assumption, .num (isNumber_decimal n)⟩

@[simp] theorem number_text (n : ℤ) : (number n).text = decimal n := rfl

@[simp] theorem number_cond (n : ℤ) : (number n).cond = True := rfl

def bool (x : Bool) : Piece Value :=
  word (truth x) (.bool x) (by cases x <;> decide)
    (by cases x <;> decide) <| by
    intro b r
    exact ⟨fun h => by cases h; assumption, .bool⟩

@[simp] theorem bool_text (x : Bool) : (bool x).text = truth x := rfl

@[simp] theorem bool_cond (x : Bool) : (bool x).cond = True := rfl

def quoted (p : Bytes) : Bytes :=
  0x22 :: (p ++ [0x22])

theorem quoted_append (p tail : Bytes) : quoted p ++ tail = 0x22 :: (p ++ 0x22 :: tail) := by
  simp [quoted]

theorem calm_quoted (p tail : Bytes) : Calm (quoted p ++ tail) := by
  rw [quoted_append]
  exact calm_quote _

theorem value_quoted_iff {s p tail r : Bytes} :
    Value (.str s) (quoted p ++ tail) r ↔ Body s (p ++ 0x22 :: tail) r := by
  rw [quoted_append]
  constructor
  · intro h
    cases h with
    | str hws hbody =>
      obtain ⟨-, rfl⟩ := (ws_cons_iff (by decide) (by decide)).mp hws
      exact hbody
  · exact .str (ws_refl _)

@[simps] def raw (s : Bytes) : Piece Value where
  text := quoted s
  value := .str s
  cond := Clean s
  reads := fun htail => value_quoted_iff.trans (body_self_iff htail)
  calm := fun _ => calm_quoted _ _

@[simps] def encoded (s p : Bytes) (h : ∀ tail, Body s (p ++ 0x22 :: tail) tail) : Piece Value where
  text := quoted p
  value := .str s
  cond := True
  reads := by
    intro tail r _
    rw [value_quoted_iff, true_and]
    exact ⟨fun hb => (hb.unique (h tail)).2, fun hr => hr ▸ h tail⟩
  calm := fun _ => calm_quoted _ _

def plain (s : Bytes) (h : Clean s) : Piece Value :=
  encoded s s (body_of_clean h)

@[simp] theorem plain_text (s : Bytes) (h : Clean s) : (plain s h).text = quoted s := rfl

@[simp] theorem plain_cond (s : Bytes) (h : Clean s) : (plain s h).cond = True := rfl

@[simps] def member (k : Bytes) (hk : Clean k) (v : Piece Value) : Piece (Member Value) where
  text := quoted k ++ 0x3A :: v.text
  value := (k, v.value)
  cond := v.cond
  reads := by
    intro tail r htail
    have hcolon : Calm (0x3A :: (v.text ++ tail)) :=
      (calm_cons (by decide)).mpr ⟨by decide, v.calm htail⟩
    rw [List.append_assoc, List.cons_append, quoted_append, ← v.reads htail]
    constructor
    · rintro ⟨hws, hbody, hws', hv⟩
      obtain ⟨-, rfl⟩ := (ws_cons_iff (by decide) (by decide)).mp hws
      obtain ⟨-, rfl⟩ := (body_self_iff hcolon).mp hbody
      obtain ⟨-, rfl⟩ := (ws_cons_iff (by decide) (by decide)).mp hws'
      exact hv
    · exact .mk (ws_refl _) (body_of_clean hk _) (ws_refl _)
  calm := by
    intro tail _
    rw [List.append_assoc]
    exact calm_quoted _ _

@[simps] def object (ms : List (Piece (Member Value))) : Piece Value where
  text := 0x7B :: itemsText 0x7D (ms.map Piece.text)
  value := .obj (ms.map Piece.value)
  cond := ∀ m ∈ ms, m.cond
  reads := by
    intro tail r htail
    rw [← items_iff isBracket_brace ms htail]
    constructor
    · intro h
      cases h with
      | obj hws h =>
        obtain ⟨-, rfl⟩ := (ws_cons_iff (by decide) (by decide)).mp hws
        exact h
    · exact .obj (ws_refl _)
  calm := fun htail => (calm_cons (by decide)).mpr
    ⟨by decide, calm_itemsText isBracket_brace ms htail⟩

@[simps] def array (vs : List (Piece Value)) : Piece Value where
  text := 0x5B :: itemsText 0x5D (vs.map Piece.text)
  value := .arr (vs.map Piece.value)
  cond := ∀ v ∈ vs, v.cond
  reads := by
    intro tail r htail
    rw [← items_iff isBracket_square vs htail]
    constructor
    · intro h
      cases h with
      | arr hws h =>
        obtain ⟨-, rfl⟩ := (ws_cons_iff (by decide) (by decide)).mp hws
        exact h
    · exact .arr (ws_refl _)
  calm := fun htail => (calm_cons (by decide)).mpr
    ⟨by decide, calm_itemsText isBracket_square vs htail⟩

theorem isText_iff (p : Piece Value) {tail : Bytes} (htail : Calm tail) (hws : Ws tail []) :
    IsText p.value (p.text ++ tail) ↔ p.cond := by
  constructor
  · rintro ⟨r, h, -⟩
    exact ((p.reads htail).mp h).1
  · exact fun h => ⟨tail, (p.reads htail).mpr ⟨h, rfl⟩, hws⟩

end Piece

end Json
end TgCli.Lib

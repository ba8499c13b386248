import Mathlib.Data.Int.Basic
import Mathlib.Data.Nat.Basic
import TgCli.Lib.Bisection

/-!
# `core/wcwidth.c`: the columns of a character

`core_wcwidth` looks for a code point in two tables of intervals, each with a binary search.  A
search of this kind is known to be right on intervals that are sorted and disjoint.  The first table
is; the second is not: `0xA490..0xA4C6` stands behind `0xA000..0xA4CF` and inside it.  A search that
looked at the inner interval first would give up `0xA4C7..0xA4CF`.

Which entries a search looks at is fixed by the length of the table, and with 95 entries it comes to
the outer interval first.  `Searchable` says what a table has to be like for `bisearch`: the order
that the way down relies on, and an entry at either end that bounds all others, because the search
begins with a look at the two ends.  Both tables are, so the two searches find what a scan finds.

A read outside a table is not defined in the source; in the model it has no result, so that a result
also says that there was no such read.
-/

namespace TgCli.Core

open Option Lib

/-- `struct interval`. -/
structure Interval where
  first : UInt32
  last : UInt32

def Interval.Contains (e : Interval) (cp : UInt32) : Prop :=
  e.first ≤ cp ∧ cp ≤ e.last

instance Interval.decidableContains (e : Interval) (cp : UInt32) : Decidable (e.Contains cp) :=
  inferInstanceAs (Decidable (_ ∧ _))

def intervals (ends : List (UInt32 × UInt32)) : List Interval :=
  ends.map fun p => ⟨p.1, p.2⟩

def sCombining : List Interval := intervals
  [(0x0000, 0x001F), (0x007F, 0x009F), (0x0300, 0x036F), (0x0483, 0x0489), (0x0591, 0x05BD),
    (0x05BF, 0x05BF), (0x05C1, 0x05C2), (0x05C4, 0x05C5), (0x05C7, 0x05C7), (0x0600, 0x0605),
    (0x0610, 0x061A), (0x061C, 0x061C), (0x064B, 0x065F), (0x0670, 0x0670), (0x06D6, 0x06DD),
    (0x06DF, 0x06E4), (0x06E7, 0x06E8), (0x06EA, 0x06ED), (0x070F, 0x070F), (0x0711, 0x0711),
    (0x0730, 0x074A), (0x07A6, 0x07B0), (0x07EB, 0x07F3), (0x07FD, 0x07FD), (0x0816, 0x0823),
    (0x0825, 0x0827), (0x0829, 0x082D), (0x0859, 0x085B), (0x0898, 0x089F), (0x08CA, 0x08E1),
    (0x08E3, 0x0902), (0x093A, 0x093A), (0x093C, 0x093C), (0x0941, 0x0948), (0x094D, 0x094D),
    (0x0951, 0x0957), (0x0962, 0x0963), (0x0981, 0x0981), (0x09BC, 0x09BC), (0x09C1, 0x09C4),
    (0x09CD, 0x09CD), (0x09E2, 0x09E3), (0x09FE, 0x09FE), (0x0A01, 0x0A02), (0x0A3C, 0x0A3C),
    (0x0A41, 0x0A42), (0x0A47, 0x0A48), (0x0A4B, 0x0A4D), (0x0A51, 0x0A51), (0x0A70, 0x0A71),
    (0x0A75, 0x0A75), (0x0A81, 0x0A82), (0x0ABC, 0x0ABC), (0x0AC1, 0x0AC5), (0x0AC7, 0x0AC8),
    (0x0ACD, 0x0ACD), (0x0AE2, 0x0AE3), (0x0AFA, 0x0AFF), (0x0B01, 0x0B01), (0x0B3C, 0x0B3C),
    (0x0B3F, 0x0B3F), (0x0B41, 0x0B44), (0x0B4D, 0x0B4D), (0x0B55, 0x0B56), (0x0B62, 0x0B63),
    (0x0B82, 0x0B82), (0x0BC0, 0x0BC0), (0x0BCD, 0x0BCD), (0x0C00, 0x0C00), (0x0C04, 0x0C04),
    (0x0C3C, 0x0C3C), (0x0C3E, 0x0C40), (0x0C46, 0x0C48), (0x0C4A, 0x0C4D), (0x0C55, 0x0C56),
    (0x0C62, 0x0C63), (0x0C81, 0x0C81), (0x0CBC, 0x0CBC), (0x0CBF, 0x0CBF), (0x0CC6, 0x0CC6),
    (0x0CCC, 0x0CCD), (0x0CE2, 0x0CE3), (0x0D00, 0x0D01), (0x0D3B, 0x0D3C), (0x0D41, 0x0D44),
    (0x0D4D, 0x0D4D), (0x0D62, 0x0D63), (0x0D81, 0x0D81), (0x0DCA, 0x0DCA), (0x0DD2, 0x0DD4),
    (0x0DD6, 0x0DD6), (0x0E31, 0x0E31), (0x0E34, 0x0E3A), (0x0E47, 0x0E4E), (0x0EB1, 0x0EB1),
    (0x0EB4, 0x0EBC), (0x0EC8, 0x0ECE), (0x0F18, 0x0F19), (0x0F35, 0x0F35), (0x0F37, 0x0F37),
    (0x0F39, 0x0F39), (0x0F71, 0x0F7E), (0x0F80, 0x0F84), (0x0F86, 0x0F87), (0x0F8D, 0x0F97),
    (0x0F99, 0x0FBC), (0x0FC6, 0x0FC6), (0x102D, 0x1030), (0x1032, 0x1037), (0x1039, 0x103A),
    (0x103D, 0x103E), (0x1058, 0x1059), (0x105E, 0x1060), (0x1071, 0x1074), (0x1082, 0x1082),
    (0x1085, 0x1086), (0x108D, 0x108D), (0x109D, 0x109D), (0x135D, 0x135F), (0x1712, 0x1714),
    (0x1732, 0x1733), (0x1752, 0x1753), (0x1772, 0x1773), (0x17B4, 0x17B5), (0x17B7, 0x17BD),
    (0x17C6, 0x17C6), (0x17C9, 0x17D3), (0x17DD, 0x17DD), (0x180B, 0x180F), (0x1885, 0x1886),
    (0x18A9, 0x18A9), (0x1920, 0x1922), (0x1927, 0x1928), (0x1932, 0x1932), (0x1939, 0x193B),
    (0x1A17, 0x1A18), (0x1A1B, 0x1A1B), (0x1A56, 0x1A56), (0x1A58, 0x1A5E), (0x1A60, 0x1A60),
    (0x1A62, 0x1A62), (0x1A65, 0x1A6C), (0x1A73, 0x1A7C), (0x1A7F, 0x1A7F), (0x1AB0, 0x1ACE),
    (0x1B00, 0x1B03), (0x1B34, 0x1B34), (0x1B36, 0x1B3A), (0x1B3C, 0x1B3C), (0x1B42, 0x1B42),
    (0x1B6B, 0x1B73), (0x1B80, 0x1B81), (0x1BA2, 0x1BA5), (0x1BA8, 0x1BA9), (0x1BAB, 0x1BAD),
    (0x1BE6, 0x1BE6), (0x1BE8, 0x1BE9), (0x1BED, 0x1BED), (0x1BEF, 0x1BF1), (0x1C2C, 0x1C33),
    (0x1C36, 0x1C37), (0x1CD0, 0x1CD2), (0x1CD4, 0x1CE0), (0x1CE2, 0x1CE8), (0x1CED, 0x1CED),
    (0x1CF4, 0x1CF4), (0x1CF8, 0x1CF9), (0x1DC0, 0x1DFF), (0x200B, 0x200F), (0x202A, 0x202E),
    (0x2060, 0x2064), (0x2066, 0x206F), (0x20D0, 0x20F0), (0x2CEF, 0x2CF1), (0x2D7F, 0x2D7F),
    (0x2DE0, 0x2DFF), (0x302A, 0x302D), (0x3099, 0x309A), (0xA66F, 0xA672), (0xA674, 0xA67D),
    (0xA69E, 0xA69F), (0xA6F0, 0xA6F1), (0xA802, 0xA802), (0xA806, 0xA806), (0xA80B, 0xA80B),
    (0xA825, 0xA826), (0xA82C, 0xA82C), (0xA8C4, 0xA8C5), (0xA8E0, 0xA8F1), (0xA8FF, 0xA8FF),
    (0xA926, 0xA92D), (0xA947, 0xA951), (0xA980, 0xA982), (0xA9B3, 0xA9B3), (0xA9B6, 0xA9B9),
    (0xA9BC, 0xA9BD), (0xA9E5, 0xA9E5), (0xAA29, 0xAA2E), (0xAA31, 0xAA32), (0xAA35, 0xAA36),
    (0xAA43, 0xAA43), (0xAA4C, 0xAA4C), (0xAA7C, 0xAA7C), (0xAAB0, 0xAAB0), (0xAAB2, 0xAAB4),
    (0xAAB7, 0xAAB8), (0xAABE, 0xAABF), (0xAAC1, 0xAAC1), (0xAAEC, 0xAAED), (0xAAF6, 0xAAF6),
    (0xABE5, 0xABE5), (0xABE8, 0xABE8), (0xABED, 0xABED), (0xFB1E, 0xFB1E), (0xFE00, 0xFE0F),
    (0xFE20, 0xFE2F), (0xFEFF, 0xFEFF), (0xFFF9, 0xFFFB), (0x101FD, 0x101FD), (0x102E0, 0x102E0),
    (0x10376, 0x1037A), (0x10A01, 0x10A0F), (0x10A38, 0x10A3A), (0x10A3F, 0x10A3F),
    (0x10AE5, 0x10AE6), (0x10D24, 0x10D27), (0x10EAB, 0x10EAC), (0x10F46, 0x10F50),
    (0x10F82, 0x10F85), (0x11001, 0x11001), (0x11038, 0x11046), (0x11070, 0x11070),
    (0x11073, 0x11074), (0x1107F, 0x11081), (0x110B3, 0x110B6), (0x110B9, 0x110BA),
    (0x110C2, 0x110C2), (0x11100, 0x11102), (0x11127, 0x1112B), (0x1112D, 0x11134),
    (0x11173, 0x11173), (0x11180, 0x11181), (0x111B6, 0x111BE), (0x111C9, 0x111CC),
    (0x111CF, 0x111CF), (0x1122F, 0x11231), (0x11234, 0x11234), (0x11236, 0x11237),
    (0x1123E, 0x1123E), (0x112DF, 0x112DF), (0x112E3, 0x112EA), (0x11300, 0x11301),
    (0x1133B, 0x1133C), (0x11340, 0x11340), (0x11366, 0x1136C), (0x11370, 0x11374),
    (0x11438, 0x1143F), (0x11442, 0x11444), (0x11446, 0x11446), (0x1145E, 0x1145E),
    (0x114B3, 0x114B8), (0x114BA, 0x114BA), (0x114BF, 0x114C0), (0x114C2, 0x114C3),
    (0x115B2, 0x115B5), (0x115BC, 0x115BD), (0x115BF, 0x115C0), (0x115DC, 0x115DD),
    (0x11633, 0x1163A), (0x1163D, 0x1163D), (0x1163F, 0x11640), (0x116AB, 0x116AB),
    (0x116AD, 0x116AD), (0x116B0, 0x116B5), (0x116B7, 0x116B7), (0x1171D, 0x1171F),
    (0x11722, 0x11725), (0x11727, 0x1172B), (0x1182F, 0x11837), (0x11839, 0x1183A),
    (0x1193B, 0x1193C), (0x1193E, 0x1193E), (0x11943, 0x11943), (0x119D4, 0x119D7),
    (0x119DA, 0x119DB), (0x119E0, 0x119E0), (0x11A01, 0x11A0A), (0x11A33, 0x11A38),
    (0x11A3B, 0x11A3E), (0x11A47, 0x11A47), (0x11A51, 0x11A56), (0x11A59, 0x11A5B),
    (0x11A8A, 0x11A96), (0x11A98, 0x11A99), (0x11C30, 0x11C36), (0x11C38, 0x11C3D),
    (0x11C3F, 0x11C3F), (0x11C92, 0x11CA7), (0x11CAA, 0x11CB0), (0x11CB2, 0x11CB3),
    (0x11CB5, 0x11CB6), (0x11D31, 0x11D36), (0x11D3A, 0x11D3A), (0x11D3C, 0x11D3D),
    (0x11D3F, 0x11D45), (0x11D47, 0x11D47), (0x11D90, 0x11D91), (0x11D95, 0x11D95),
    (0x11D97, 0x11D97), (0x11EF3, 0x11EF4), (0x16AF0, 0x16AF4), (0x16B30, 0x16B36),
    (0x16F4F, 0x16F4F), (0x16F8F, 0x16F92), (0x16FE4, 0x16FE4), (0x1BC9D, 0x1BC9E),
    (0x1BCA0, 0x1BCA3), (0x1CF00, 0x1CF2D), (0x1CF30, 0x1CF46), (0x1D167, 0x1D169),
    (0x1D173, 0x1D182), (0x1D185, 0x1D18B), (0x1D1AA, 0x1D1AD), (0x1D242, 0x1D244),
    (0x1DA00, 0x1DA36), (0x1DA3B, 0x1DA6C), (0x1DA75, 0x1DA75), (0x1DA84, 0x1DA84),
    (0x1DA9B, 0x1DA9F), (0x1DAA1, 0x1DAAF), (0x1E000, 0x1E006), (0x1E008, 0x1E018),
    (0x1E01B, 0x1E021), (0x1E023, 0x1E024), (0x1E026, 0x1E02A), (0x1E130, 0x1E136),
    (0x1E2AE, 0x1E2AE), (0x1E2EC, 0x1E2EF), (0x1E4EC, 0x1E4EF), (0x1E8D0, 0x1E8D6),
    (0x1E944, 0x1E94A), (0xE0001, 0xE0001), (0xE0020, 0xE007F), (0xE0100, 0xE01EF)]

def sWide : List Interval := intervals
  [(0x1100, 0x115F), (0x231A, 0x231B), (0x2329, 0x232A), (0x23E9, 0x23F3), (0x23F8, 0x23FA),
    (0x25FD, 0x25FE), (0x2614, 0x2615), (0x2648, 0x2653), (0x267F, 0x267F), (0x2693, 0x2693),
    (0x26A1, 0x26A1), (0x26AA, 0x26AB), (0x26BD, 0x26BE), (0x26C4, 0x26C5), (0x26CE, 0x26CE),
    (0x26D4, 0x26D4), (0x26EA, 0x26EA), (0x26F2, 0x26F3), (0x26F5, 0x26F5), (0x26FA, 0x26FA),
    (0x26FD, 0x26FD), (0x2702, 0x2702), (0x2705, 0x2705), (0x2708, 0x270D), (0x270F, 0x270F),
    (0x2712, 0x2712), (0x2714, 0x2714), (0x2716, 0x2716), (0x271D, 0x271D), (0x2721, 0x2721),
    (0x2728, 0x2728), (0x2733, 0x2734), (0x2744, 0x2744), (0x2747, 0x2747), (0x274C, 0x274C),
    (0x274E, 0x274E), (0x2753, 0x2755), (0x2757, 0x2757), (0x2763, 0x2764), (0x2795, 0x2797),
    (0x27A1, 0x27A1), (0x27B0, 0x27B0), (0x27BF, 0x27BF), (0x2934, 0x2935), (0x2B05, 0x2B07),
    (0x2B1B, 0x2B1C), (0x2B50, 0x2B50), (0x2B55, 0x2B55), (0x2E80, 0x2EFF), (0x2F00, 0x2FDF),
    (0x2FE0, 0x2FEF), (0x2FF0, 0x2FFF), (0x3000, 0x303E), (0x3041, 0x33FF), (0x3400, 0x4DBF),
    (0x4DC0, 0x4DFF), (0x4E00, 0x9FFF), (0xA000, 0xA4CF), (0xA490, 0xA4C6), (0xA960, 0xA97F),
    (0xAC00, 0xD7A3), (0xF900, 0xFAFF), (0xFE10, 0xFE19), (0xFE30, 0xFE6F), (0xFF00, 0xFF60),
    (0xFFE0, 0xFFE6), (0x1B000, 0x1B12F), (0x1B150, 0x1B152), (0x1B164, 0x1B167),
    (0x1B170, 0x1B2FF), (0x1F004, 0x1F004), (0x1F0CF, 0x1F0CF), (0x1F18E, 0x1F18E),
    (0x1F191, 0x1F19A), (0x1F1E0, 0x1F1FF), (0x1F201, 0x1F201), (0x1F21A, 0x1F21A),
    (0x1F22F, 0x1F22F), (0x1F232, 0x1F23A), (0x1F250, 0x1F251), (0x1F300, 0x1F64F),
    (0x1F680, 0x1F6FF), (0x1F774, 0x1F77F), (0x1F7D5, 0x1F7FF), (0x1F80C, 0x1F80F),
    (0x1F848, 0x1F84F), (0x1F85A, 0x1F85F), (0x1F888, 0x1F88F), (0x1F8AE, 0x1F8FF),
    (0x1F90C, 0x1F93A), (0x1F93C, 0x1F945), (0x1F947, 0x1FAFF), (0x1FB00, 0x1FBFF),
    (0x20000, 0x2FFFD), (0x30000, 0x3FFFD)]

def entry (table : List Interval) (i : ℤ) : Option Interval :=
  if i < 0 then none else table[i.toNat]?

/-- The loop of `bisearch`. -/
def bisearchLoop (cp : UInt32) (table : List Interval) (min max : ℤ) : Option Bool :=
  if max ≥ min then
    match entry table ((min + max) / 2) with
    | none => none
    | some e =>
      if cp > e.last then bisearchLoop cp table ((min + max) / 2 + 1) max
      else if cp < e.first then bisearchLoop cp table min ((min + max) / 2 - 1)
      else some true
  else some false
termination_by (max + 1 - min).toNat
decreasing_by all_goals omega

def bisearch (cp : UInt32) (table : List Interval) (max : ℤ) : Option Bool := do
  let e ← entry table 0
  if cp < e.first then some false
  else
    let e ← entry table max
    if cp > e.last then some false else bisearchLoop cp table 0 max

def coreWcwidth (cp : UInt32) : Option ℤ := do
  if cp = 0 then some 0
  else
    let combining ← bisearch cp sCombining (sCombining.length - 1)
    if combining then some 0
    else
      let wide ← bisearch cp sWide (sWide.length - 1)
      if wide then some 2 else some 1

/-! ## The loop as a way down -/

def lowEnd (e : Interval) : ℕ := e.first.toNat

def highEnd (e : Interval) : ℕ := e.last.toNat

theorem entry_append (a : List Interval) (e : Interval) (b : List Interval) :
    entry (a ++ e :: b) a.length = some e := by
  have hpos : ¬ ((a.length : ℤ) < 0) := by omega
  rw [entry, if_neg hpos, Int.toNat_natCast, List.getElem?_append_right le_rfl, Nat.sub_self]
  rfl

/-- **The loop over a part of a table** goes down in the tree of its bisection. -/
theorem bisearchLoop_append (cp : UInt32) {n : ℕ} {l : List Interval} (hl : l.length ≤ n)
    (pre post : List Interval) :
    bisearchLoop cp (pre ++ (l ++ post)) pre.length (pre.length + l.length - 1) =
      some (Bisection.find lowEnd highEnd cp.toNat (Bisection.halves n l)) := by
  revert pre post
  refine Bisection.halves_induction (fun n pre post => ?_)
    (fun n a e b hmid iha ihb pre post => ?_) hl
  · have hempty : ¬ ((pre.length : ℤ) + ([] : List Interval).length - 1 ≥ pre.length) := by
      rw [List.length_nil]
      omega
    rw [bisearchLoop, if_neg hempty, Bisection.halves_nil, Bisection.find]
  · -- the entry that is looked at is the one between the halves
    have hlen : ((a ++ e :: b).length : ℤ) = a.length + b.length + 1 := by
      rw [List.length_append, List.length_cons]
      omega
    have hpre : ((pre ++ a).length : ℤ) = pre.length + a.length := by
      rw [List.length_append]
      omega
    have hcenter : ((pre.length : ℤ) + (pre.length + (a ++ e :: b).length - 1)) / 2 =
        (pre ++ a).length := by omega
    have hstart : ((pre ++ a ++ [e]).length : ℤ) = (pre ++ a).length + 1 := by
      rw [List.length_append, List.length_singleton]
      omega
    have hend : ((pre ++ a ++ [e]).length : ℤ) + b.length - 1 =
        pre.length + (a ++ e :: b).length - 1 := by omega
    have htable : pre ++ (a ++ e :: b ++ post) = (pre ++ a) ++ e :: (b ++ post) := by simp
    have hright := ihb (pre ++ a ++ [e]) post
    rw [hend, hstart, ← List.append_cons] at hright
    have hleft := iha pre (e :: (b ++ post))
    rw [← hpre, ← List.append_assoc] at hleft
    rw [bisearchLoop, if_pos (by omega), hcenter, htable, entry_append,
      Bisection.halves_append n e hmid, Bisection.find, apply_ite some, apply_ite some]
    exact if_congr UInt32.lt_iff_toNat_lt hright (if_congr UInt32.lt_iff_toNat_lt hleft rfl)

/-! ## What `bisearch` relies on -/

/-- **A table that can be searched**: it has an entry, none begins before the first or ends behind
the last, and the way down may leave out what it leaves out. -/
structure Searchable (table : List Interval) : Prop where
  ne_nil : table ≠ []
  first_le : ∀ a ∈ table.head?, ∀ e ∈ table, a.first ≤ e.first
  le_last : ∀ b ∈ table.getLast?, ∀ e ∈ table, e.last ≤ b.last
  ordered : Bisection.Ordered lowEnd highEnd (Bisection.halves table.length table)

theorem searchable_sCombining : Searchable sCombining where
  ne_nil := by decide
  first_le := by decide +kernel
  le_last := by decide +kernel
  ordered := by decide +kernel

theorem searchable_sWide : Searchable sWide where
  ne_nil := by decide
  first_le := by decide +kernel
  le_last := by decide +kernel
  ordered := by decide +kernel

/-- The wide intervals are not disjoint. -/
example : ¬ sWide.Pairwise fun a b => a.last < b.first := by
  decide +kernel

theorem Searchable.bisearchLoop_eq {table : List Interval} (h : Searchable table) (cp : UInt32) :
    bisearchLoop cp table 0 (table.length - 1) = some (decide (∃ e ∈ table, e.Contains cp)) := by
  have hloop := bisearchLoop_append cp (le_refl table.length) [] []
  have hfind := Bisection.find_iff h.ordered cp.toNat
  rw [Bisection.inorder_halves le_rfl] at hfind
  rw [List.nil_append, List.append_nil, List.length_nil, Int.natCast_zero, Int.zero_add] at hloop
  rw [hloop, some_inj, Bool.eq_iff_iff, hfind, decide_eq_true_iff]
  rfl

/-- **On a table that can be searched `bisearch` finds what a scan finds.** -/
theorem Searchable.bisearch_eq {table : List Interval} (h : Searchable table) (cp : UInt32) :
    bisearch cp table (table.length - 1) = some (decide (∃ e ∈ table, e.Contains cp)) := by
  obtain ⟨a, ha⟩ : ∃ a, table.head? = some a :=
    ne_none_iff_exists'.mp fun hnone => h.ne_nil (List.head?_eq_none_iff.mp hnone)
  obtain ⟨b, hb⟩ : ∃ b, table.getLast? = some b :=
    ne_none_iff_exists'.mp fun hnone => h.ne_nil (List.getLast?_eq_none_iff.mp hnone)
  have hfirst : entry table 0 = some a := by
    obtain ⟨rest, rfl⟩ := List.head?_eq_some_iff.mp ha
    rfl
  have hlast : entry table (table.length - 1) = some b := by
    obtain ⟨front, rfl⟩ := List.getLast?_eq_some_iff.mp hb
    have hend : ((front ++ [b]).length : ℤ) - 1 = front.length := by
      rw [List.length_append, List.length_singleton]
      omega
    rw [hend, entry_append]
  rw [bisearch, hfirst, bind_eq_bind, bind_some]
  split_ifs with hlow
  · have hnone : ¬ ∃ e ∈ table, e.Contains cp := by
      rintro ⟨e, he, hcp⟩
      exact UInt32.not_le.mpr hlow (UInt32.le_trans (h.first_le a ha e he) hcp.1)
    rw [decide_eq_false hnone]
  · rw [hlast, bind_some]
    split_ifs with hhigh
    · have hnone : ¬ ∃ e ∈ table, e.Contains cp := by
        rintro ⟨e, he, hcp⟩
        exact UInt32.not_le.mpr hhigh (UInt32.le_trans hcp.2 (h.le_last b hb e he))
      rw [decide_eq_false hnone]
    · exact h.bisearchLoop_eq cp

/-- **The width of a code point** is that of a scan: 0 in an interval of the first table, otherwise
2 in one of the second, otherwise 1. -/
theorem coreWcwidth_eq (cp : UInt32) :
    coreWcwidth cp = some
      (if ∃ e ∈ sCombining, e.Contains cp then 0
      else if ∃ e ∈ sWide, e.Contains cp then 2
      else 1) := by
  rw [coreWcwidth, searchable_sCombining.bisearch_eq, searchable_sWide.bisearch_eq]
  by_cases hcp : cp = 0
  · have hcombining : ∃ e ∈ sCombining, e.Contains cp :=
      ⟨⟨0x0000, 0x001F⟩, List.mem_cons_self, by rw [hcp]; decide⟩
    rw [if_pos hcp, if_pos hcombining]
  · rw [if_neg hcp, bind_eq_bind, bind_some, bind_some, apply_ite some,
      apply_ite some]
    exact if_congr decide_eq_true_iff rfl (if_congr decide_eq_true_iff rfl rfl)

end TgCli.Core

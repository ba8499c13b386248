import TgCli.Core.TlSkip.Chat
import TgCli.Core.TlSkip.Reading
import TgCli.Lib.Reading

/-!
# `core/tl_skip.c`: what `tl_extract_user` finds in a user

A user is laid out with its flags, its id and the fields that the flags announce.  The name is the
first and the last name with a blank between them, each cut to its array (`joinedName`), and what is
noted of a user is `UserObject.summary` (`UserObject.reads_extract`).
-/

namespace TgCli.Core

open List Lib Walk

/-! ## Extractors that read -/

namespace Ext

variable {Ω α : Type} {b : Bytes} {a : α} {o o' : Ω}

/-- The extractor takes `b` off the buffer and leads from what is noted in `o` to `o'`. -/
abbrev Reads (m : Prog (Ext Ω) α) (b : Bytes) (a : α) (o o' : Ω) : Prop :=
  Prog.Reads (fun st : Ext Ω => st.reader.rest) Ext.out m b a (some o) (some o')

/-- A walk notes nothing. -/
theorem reads_walk {w : Walk α} (hw : Walk.Reads w b a) : Reads (walk w) b a o o := by
  intro st t hr ho
  obtain ⟨r', hw, ht⟩ := hw st.reader t hr
  exact ⟨⟨r', st.out⟩, walk_of_some hw st.out, fun _ => ht, ho⟩

theorem reads_need {n : ℕ} {m : Unit → Prog (Ext Ω) α} (hm : Reads (m ()) b a o o')
    (hn : n ≤ b.length) : Reads (walk (Walk.need n) >>= m) b a o o' := by
  intro st t hr ho
  have hleft : n ≤ st.reader.left := by
    by_cases hb : b = []
    · rw [hb, length_nil] at hn
      omega
    · exact hn.trans (Walk.Reads.le_left hr hb)
  rw [Prog.bind_of_some (walk_of_some (Guarded.need_eq_some.mpr ⟨hleft, rfl⟩) st.out)]
  exact hm st t hr ho

/-- An assignment takes nothing off the buffer. -/
theorem reads_set (f : Ω → Ω) : Reads (set f) [] () o (f o) :=
  fun st _ hr ho => ⟨⟨st.reader, st.out.map f⟩, rfl, fun _ => hr, by rw [ho]; rfl⟩

theorem reads_stringInto (f : Bytes → Ω → Ω) (s : TlString) :
    Reads (stringInto f) s.bytes () o (f (cstr s.val) o) := by
  intro st t hr ho
  obtain ⟨r, out⟩ := st
  obtain rfl : out = some o := ho
  obtain ⟨h1, h2⟩ := s.readString hr
  refine ⟨⟨(tlReadString r).2, some (f (cstr s.val) o)⟩, ?_, fun _ => h2, rfl⟩
  rw [stringInto]
  rcases hx : tlReadString r with ⟨_ | v, r'⟩ <;> rw [hx] at h1
  · exact absurd h1.symm (Option.some_ne_none _)
  · obtain rfl : v = cstr s.val := Option.some.inj h1
    rfl

/-- A field behind a flag. -/
theorem reads_opt {c : Bool} {m : Prog (Ext Ω) Unit} {field : c = true → Bytes}
    (h : ∀ hc, Reads m (field hc) () o o') :
    Reads (opt c m) (whenSet c field) () o (if c then o' else o) := by
  rw [opt, whenSet]
  cases c
  · exact Prog.Takes.pure
  · exact h rfl

/-- A loop over things of which `g` is what is noted. -/
theorem reads_rep {ι : Type} {m : Prog (Ext Ω) Unit} {f : ι → Bytes} {g : Ω → ι → Ω}
    (hm : ∀ x o, Reads m (f x) () o (g o x)) (l : List ι) (o : Ω) :
    Reads (rep m l.length) (l.flatMap f) () o (l.foldl g o) := by
  induction l generalizing o with
  | nil => exact Prog.Takes.pure
  | cons x l ih => exact (hm x o).bind (ih _)

end Ext

/-! ## Users -/

/-- The name that is shown: what fits of the first and of the last name, and of the two together. -/
def joinedName (first last : Bytes) : Bytes :=
  (first.take 95 ++ (if first = [] ∨ last = [] then [] else ascii " ") ++ last.take 95).take 127

/-- A `user`.  A field counts only if its flag is set. -/
structure UserRecord where
  crc : UInt32
  known : crc = tlUser ∨ crc = tlUser2
  flags : UInt32
  flags2 : UInt32
  id : Int64
  accessHash : Int64
  firstName : TlString
  lastName : TlString
  username : TlString
  rest : Bytes
  walked : Walk.Reads (skipUserRest flags flags2) rest ()

namespace UserRecord

variable (u : UserRecord)

def fields : Bytes :=
  u32Bytes u.flags ++ (u32Bytes u.flags2 ++ (u64Bytes u.id.toUInt64 ++
    (whenSet (hasFlag u.flags 0) (fun _ => u64Bytes u.accessHash.toUInt64) ++
    (whenSet (hasFlag u.flags 1) (fun _ => u.firstName.bytes) ++
    (whenSet (hasFlag u.flags 2) (fun _ => u.lastName.bytes) ++
    (whenSet (hasFlag u.flags 3) (fun _ => u.username.bytes) ++ u.rest))))))

def bytes : Bytes :=
  u32Bytes u.crc ++ u.fields

def summary : UserSummary :=
  { id := u.id
    accessHash := if hasFlag u.flags 0 then u.accessHash else 0
    haveAccessHash := hasFlag u.flags 0
    name := joinedName (if hasFlag u.flags 1 then cstr u.firstName.val else [])
      (if hasFlag u.flags 2 then cstr u.lastName.val else [])
    username := if hasFlag u.flags 3 then (cstr u.username.val).take 63 else [] }

end UserRecord

/-! ### How the name is put together -/

theorem strAppend_eq_take {dst src : Bytes} {n : ℕ} (h : dst.length ≤ n) :
    strAppend dst (n + 1) src = (dst ++ src).take n := by
  rw [strAppend, if_neg (Nat.succ_ne_zero n), Nat.add_sub_cancel]
  split_ifs with hfull
  · have hn : n = dst.length := by omega
    rw [hn, take_left]
  · rw [take_append, take_of_length_le h]

theorem setFirstName_of_empty {o : UserSummary} (ho : o.name = []) (first : Bytes) :
    o.setFirstName first = { o with name := first.take 95 } := by
  have hfits : (first.take 95).length ≤ 127 := by
    rw [length_take]
    omega
  rw [UserSummary.setFirstName, ho, strAppend_eq_take (Nat.zero_le _), nil_append,
    take_of_length_le hfits]

theorem setLastName_of_first {o : UserSummary} {first : Bytes} (ho : o.name = first.take 95)
    (last : Bytes) : o.setLastName last = { o with name := joinedName first last } := by
  have hshort : (first.take 95).length ≤ 95 := length_take_le 95 first
  have hempty : ∀ s : Bytes, s.take 95 = [] ↔ s = [] := by
    intro s
    simp
  rw [UserSummary.setLastName, ho]
  simp only [hempty]
  by_cases hlast : last = []
  · rw [if_pos hlast, hlast, joinedName, if_pos (Or.inr rfl), append_nil, take_nil,
      append_nil, take_of_length_le (by omega), ← ho]
  · rw [if_neg hlast, joinedName]
    by_cases hfirst : first = []
    · rw [if_pos hfirst, if_pos (Or.inl hfirst), strAppend_eq_take (by omega), append_nil]
    · have hblank : strAppend (first.take 95) 128 (ascii " ") = first.take 95 ++ ascii " " := by
        have hlen : (first.take 95 ++ ascii " ").length = (first.take 95).length + 1 :=
          length_append
        rw [strAppend_eq_take (by omega), take_of_length_le (by omega)]
      have hlen : (first.take 95 ++ ascii " ").length = (first.take 95).length + 1 :=
        length_append
      rw [if_neg hfirst, if_neg (not_or.mpr ⟨hfirst, hlast⟩), hblank,
        strAppend_eq_take (by omega)]

namespace UserRecord

variable (u : UserRecord)

/-! What is noted of the fields one after the other. -/

def noteHash (o : UserSummary) : UserSummary :=
  if hasFlag u.flags 0 then { o with accessHash := u.accessHash, haveAccessHash := true } else o

def noteFirstName (o : UserSummary) : UserSummary :=
  if hasFlag u.flags 1 then o.setFirstName (cstr u.firstName.val) else o

def noteLastName (o : UserSummary) : UserSummary :=
  if hasFlag u.flags 2 then o.setLastName (cstr u.lastName.val) else o

def noteUsername (o : UserSummary) : UserSummary :=
  if hasFlag u.flags 3 then o.setUsername (cstr u.username.val) else o

theorem noteFirstName_of_empty {o : UserSummary} (ho : o.name = []) : u.noteFirstName o =
    { o with name := (if hasFlag u.flags 1 then cstr u.firstName.val else []).take 95 } := by
  unfold noteFirstName
  split_ifs
  · exact setFirstName_of_empty ho _
  · rw [take_nil, ← ho]

theorem noteLastName_of_first {o : UserSummary} {first : Bytes} (ho : o.name = first.take 95) :
    u.noteLastName o =
      { o with name :=
        joinedName first (if hasFlag u.flags 2 then cstr u.lastName.val else []) } := by
  unfold noteLastName
  split_ifs
  · exact setLastName_of_first ho _
  · -- a name that is missing is noted like an empty one
    rw [← setLastName_of_first ho [], UserSummary.setLastName, take_nil]
    exact (if_pos rfl).symm

theorem noted_eq_summary :
    u.noteUsername (u.noteLastName (u.noteFirstName (u.noteHash ⟨u.id, 0, false, [], []⟩))) =
      u.summary := by
  have hhash : u.noteHash ⟨u.id, 0, false, [], []⟩ =
      ⟨u.id, if hasFlag u.flags 0 then u.accessHash else 0, hasFlag u.flags 0, [], []⟩ := by
    unfold noteHash
    cases hasFlag u.flags 0 <;> rfl
  rw [hhash, u.noteFirstName_of_empty rfl, u.noteLastName_of_first rfl]
  unfold noteUsername summary
  cases hasFlag u.flags 3 <;> rfl

theorem reads_extractUser :
    Ext.Reads extractUser.run u.fields () ⟨0, 0, false, [], []⟩ u.summary := by
  rw [← u.noted_eq_summary]
  have hlong : ∀ x : Int64, Walk.Reads (do need 8; i64) (u64Bytes x.toUInt64) x := fun x =>
    Walk.Reads.need (Walk.Reads.i64 x) (length_u64Bytes _).ge
  have hhash : ∀ o, Ext.Reads (Ext.opt (hasFlag u.flags 0) do
      let accessHash ← Ext.walk do need 8; i64
      Ext.set fun o => { o with accessHash, haveAccessHash := true })
      (whenSet (hasFlag u.flags 0) fun _ => u64Bytes u.accessHash.toUInt64) () o (u.noteHash o) :=
    fun o => Ext.reads_opt fun _ => (Ext.reads_walk (hlong _)).last (Ext.reads_set _)
  have hfirst : ∀ o,
      Ext.Reads (Ext.opt (hasFlag u.flags 1) (Ext.stringInto UserSummary.setFirstName))
      (whenSet (hasFlag u.flags 1) fun _ => u.firstName.bytes) () o (u.noteFirstName o) :=
    fun o => Ext.reads_opt fun _ => Ext.reads_stringInto _ u.firstName
  have hlast : ∀ o, Ext.Reads (Ext.opt (hasFlag u.flags 2) (Ext.stringInto UserSummary.setLastName))
      (whenSet (hasFlag u.flags 2) fun _ => u.lastName.bytes) () o (u.noteLastName o) :=
    fun o => Ext.reads_opt fun _ => Ext.reads_stringInto _ u.lastName
  have husername : ∀ o,
      Ext.Reads (Ext.opt (hasFlag u.flags 3) (Ext.stringInto UserSummary.setUsername))
      (whenSet (hasFlag u.flags 3) fun _ => u.username.bytes) () o (u.noteUsername o) :=
    fun o => Ext.reads_opt fun _ => Ext.reads_stringInto _ u.username
  refine Ext.reads_need ((Ext.reads_walk (Walk.Reads.u32 u.flags)).bind
    ((Ext.reads_walk (Walk.Reads.u32 u.flags2)).bind ((Ext.reads_walk (hlong u.id)).bind
    ((Ext.reads_set _).step ((hhash _).bind ((hfirst _).bind ((hlast _).bind
    ((husername _).bind (Ext.reads_walk u.walked))))))))) ?_
  simp only [fields, length_append, length_u32Bytes]
  omega

end UserRecord

inductive UserObject where
  | empty (id : Int64)
  | user (u : UserRecord)

namespace UserObject

def bytes : UserObject → Bytes
  | empty id => u32Bytes tlUserEmpty ++ u64Bytes id.toUInt64
  | user u => u.bytes

def summary : UserObject → UserSummary
  | empty id => ⟨id, 0, false, [], []⟩
  | user u => u.summary

theorem bytes_ne_nil (u : UserObject) : u.bytes ≠ [] := by
  refine ne_nil_of_length_pos ?_
  cases u <;> simp only [bytes, UserRecord.bytes, length_append, length_u32Bytes] <;> omega

/-- **What `tl_extract_user` notes of a user** is its summary. -/
theorem reads_extract (u : UserObject) (o : UserSummary) :
    Ext.Reads extractUserInner.run u.bytes () o u.summary := by
  have hcrc : ∀ crc : UInt32, Walk.Reads (do enter 4; u32) (u32Bytes crc) crc := fun crc =>
    Walk.Reads.enter (Walk.Reads.u32 crc) (length_u32Bytes _).ge (by decide)
  cases u with
  | empty id =>
    have hid : Walk.Reads (do need 8; i64) (u64Bytes id.toUInt64) id :=
      Walk.Reads.need (Walk.Reads.i64 id) (length_u64Bytes _).ge
    exact (Ext.reads_set _).step ((Ext.reads_walk (hcrc tlUserEmpty)).bind
      ((Ext.reads_walk hid).last (Ext.reads_set _)))
  | user u =>
    refine (Ext.reads_set _).step ((Ext.reads_walk (hcrc u.crc)).bind ?_)
    have hempty : u.crc ≠ tlUserEmpty := by
      obtain h | h := u.known <;> rw [h] <;> decide
    rw [if_neg hempty, if_pos u.known]
    exact u.reads_extractUser

end UserObject

end TgCli.Core

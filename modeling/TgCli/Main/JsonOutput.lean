import TgCli.Core.JsonUtil
import TgCli.Domain.Contacts
import TgCli.Domain.Self
import TgCli.Main.Watch

/-!
# `--json` output of `main/tg_cli_ro.c`

Seven commands have a machine-readable output, and each assembles it with `printf`.  `search` and
`watch` pass the text of a message through `json_escape_str`; `me`, `contacts`, `user-info`,
`dialogs` and `history` put the strings of an entry between quotes as they are.

A `JsonReport` is what one of the commands has to print.  `JsonReport.print` is the output, byte by
byte, and `JsonReport.WellFormed` says that it is what it should be: JSON, with the fields of each
entry in an object.  By `wellFormed_iff` it is exactly if the strings that were not escaped had
nothing in them to escape; so for `search` and `watch` it always is, and for the others a sender
decides.
-/

namespace TgCli.Main

open List Lib Json TgCli.Core Infrastructure Domain

/-! ## What is printed -/

/-- A `HistoryEntry` whose text fits its array, as every one does that is held in one. -/
abbrev HeldEntry := {e : HistoryEntry // e.text.length < historyTextMax}

def peerKindName : DialogPeerKind → Bytes
  | .user => ascii "user"
  | .chat => ascii "chat"
  | .channel => ascii "channel"
  | .unknown => ascii "unknown"

def resolvedKindName : ResolvedKind → Bytes
  | .user => ascii "user"
  | .chat => ascii "chat"
  | .channel => ascii "channel"
  | .unknown => ascii "unknown"

def mediaLabel : MediaKind → Bytes
  | .none => []
  | .empty => []
  | .unsupported => ascii "unsup"
  | .photo => ascii "photo"
  | .document => ascii "document"
  | .geo => ascii "geo"
  | .contact => ascii "contact"
  | .venue => ascii "venue"
  | .geoLive => ascii "geo_live"
  | .dice => ascii "dice"
  | .webpage => ascii "webpage"
  | .poll => ascii "poll"
  | .invoice => ascii "invoice"
  | .story => ascii "story"
  | .giveaway => ascii "giveaway"
  | .game => ascii "game"
  | .paid => ascii "paid"
  | .other => ascii "other"

/-- The text of an entry in the buffer `esc[HISTORY_TEXT_MAX * 6 + 1]`. -/
def escapedText (e : HistoryEntry) : Bytes :=
  (jsonEscapeStr (historyTextMax * 6 + 1) (some e.text)).dst

def printSelfJson (me : SelfInfo) : Bytes :=
  ascii "\x7b\"id\":" ++ decimal me.id.toInt ++ ascii ",\"username\":\"" ++ cstr me.username ++
  ascii "\",\"first_name\":\"" ++ cstr me.firstName ++ ascii "\"," ++
  ascii "\"last_name\":\"" ++ cstr me.lastName ++ ascii "\",\"phone\":\"" ++ cstr me.phone ++
  ascii "\",\"premium\":" ++ truth me.isPremium ++ ascii ",\"bot\":" ++ truth me.isBot ++
  ascii "\x7d\n"

def printContact (e : ContactEntry) : Bytes :=
  ascii "\x7b\"user_id\":" ++ decimal e.userId.toInt ++ ascii ",\"mutual\":" ++ truth e.isMutual ++
  ascii ",\"name\":\"" ++ cstr e.name ++ ascii "\",\"username\":\"" ++ cstr e.username ++
  ascii "\"\x7d"

def printUserInfo (r : ResolvedPeer) : Bytes :=
  ascii "\x7b\"type\":\"" ++ resolvedKindName r.kind ++ ascii "\",\"id\":" ++ decimal r.id.toInt ++
  ascii ",\"username\":\"" ++ cstr r.username ++ ascii "\"," ++ ascii "\"access_hash\":\"" ++
  ascii (if r.haveHash then "present" else "none") ++ ascii "\"\x7d\n"

def printDialog (e : DialogEntry) : Bytes :=
  ascii "\x7b\"type\":\"" ++ peerKindName e.kind ++ ascii "\",\"id\":" ++ decimal e.peerId.toInt ++
  ascii ",\"title\":\"" ++ cstr e.title ++ ascii "\"," ++ ascii "\"username\":\"" ++
  cstr e.username ++ ascii "\",\"top\":" ++ decimal e.topMessageId.toInt ++ ascii ",\"unread\":" ++
  decimal e.unreadCount.toInt ++ ascii "\x7d"

def printMatch (e : HistoryEntry) : Bytes :=
  ascii "\x7b\"id\":" ++ decimal e.id.toInt ++ ascii ",\"out\":" ++ truth e.out ++
  ascii ",\"date\":" ++ decimal e.date.toInt ++ ascii ",\"text\":\"" ++ escapedText e ++
  ascii "\"," ++ ascii "\"complex\":" ++ truth e.complex ++ ascii "\x7d"

def printWatched (e : HistoryEntry) : Bytes :=
  ascii "\x7b\"peer_id\":" ++ decimal e.peerId.toInt ++ ascii ",\"msg_id\":" ++
  decimal e.id.toInt ++ ascii ",\"date\":" ++ decimal e.date.toInt ++ ascii ",\"text\":\"" ++
  escapedText e ++ ascii "\"\x7d\n"

/-- The options and the media index that `cmd_history` prints with: `index` is what
`media_index_get` finds. -/
structure HistoryPrint where
  noMedia : Bool
  index : Int64 → Option Bytes

namespace HistoryPrint

/-- `--no-media` leaves out an entry with a medium and no text. -/
def skips (p : HistoryPrint) (e : HistoryEntry) : Bool :=
  p.noMedia && e.media != .none && e.media != .empty && (cstr e.text).isEmpty

def label (p : HistoryPrint) (e : HistoryEntry) : Bytes :=
  if p.noMedia then [] else mediaLabel e.media

def mediaId (p : HistoryPrint) (e : HistoryEntry) : ℤ :=
  if p.noMedia then 0 else e.mediaId.toInt

def path (p : HistoryPrint) (e : HistoryEntry) : Bytes :=
  if !p.noMedia && e.mediaId != 0 && (e.media == .photo || e.media == .document) then
    (p.index e.mediaId).getD []
  else []

def entry (p : HistoryPrint) (e : HistoryEntry) : Bytes :=
  ascii "\x7b\"id\":" ++ decimal e.id.toInt ++ ascii ",\"out\":" ++ truth e.out ++
  ascii ",\"date\":" ++ decimal e.date.toInt ++ ascii ",\"text\":\"" ++ cstr e.text ++
  ascii "\"," ++ ascii "\"complex\":" ++ truth e.complex ++ ascii ",\"media\":\"" ++ p.label e ++
  ascii "\",\"media_id\":" ++ decimal (p.mediaId e) ++ ascii ",\"media_path\":\"" ++
  cstr (p.path e) ++ ascii "\"\x7d"

/-- The loop of `cmd_history`, with its flag `first`. -/
def loop (p : HistoryPrint) : Bool → List HistoryEntry → Bytes
  | _, [] => []
  | first, e :: es =>
    if p.skips e then p.loop first es
    else (if first then [] else ascii ",") ++ p.entry e ++ p.loop false es

end HistoryPrint

/-- The loop of a command that prints every entry: a comma, but not in front of the first. -/
def printItems {α : Type} (item : α → Bytes) : ℕ → List α → Bytes
  | _, [] => []
  | i, x :: xs => (if i ≠ 0 then ascii "," else []) ++ item x ++ printItems item (i + 1) xs

/-- What one of the commands has to print. -/
inductive JsonReport where
  | me (info : SelfInfo)
  | contacts (entries : List ContactEntry)
  | userInfo (r : ResolvedPeer)
  | dialogs (entries : List DialogEntry)
  | history (p : HistoryPrint) (entries : List HistoryEntry)
  | search (entries : List HeldEntry)
  | watch (peers : List Int64) (newMessages : List HeldEntry)

def JsonReport.print : JsonReport → Bytes
  | me info => printSelfJson info
  | contacts es => ascii "[" ++ printItems printContact 0 es ++ ascii "]\n"
  | userInfo r => printUserInfo r
  | dialogs es => ascii "[" ++ printItems printDialog 0 es ++ ascii "]\n"
  | history p es => ascii "[" ++ p.loop true es ++ ascii "]\n"
  | search es => ascii "[" ++ printItems (fun e => printMatch e.1) 0 es ++ ascii "]\n"
  | watch peers es =>
    (es.filter fun e => watchPeerAllowed peers e.1.peerId).flatMap fun e => printWatched e.1

/-! ## What it should say -/

def selfJson (me : SelfInfo) : Json :=
  .obj [(ascii "id", .num (decimal me.id.toInt)), (ascii "username", .str (cstr me.username)),
    (ascii "first_name", .str (cstr me.firstName)), (ascii "last_name", .str (cstr me.lastName)),
    (ascii "phone", .str (cstr me.phone)), (ascii "premium", .bool me.isPremium),
    (ascii "bot", .bool me.isBot)]

def contactJson (e : ContactEntry) : Json :=
  .obj [(ascii "user_id", .num (decimal e.userId.toInt)), (ascii "mutual", .bool e.isMutual),
    (ascii "name", .str (cstr e.name)), (ascii "username", .str (cstr e.username))]

def userInfoJson (r : ResolvedPeer) : Json :=
  .obj [(ascii "type", .str (resolvedKindName r.kind)), (ascii "id", .num (decimal r.id.toInt)),
    (ascii "username", .str (cstr r.username)),
    (ascii "access_hash", .str (ascii (if r.haveHash then "present" else "none")))]

def dialogJson (e : DialogEntry) : Json :=
  .obj [(ascii "type", .str (peerKindName e.kind)), (ascii "id", .num (decimal e.peerId.toInt)),
    (ascii "title", .str (cstr e.title)), (ascii "username", .str (cstr e.username)),
    (ascii "top", .num (decimal e.topMessageId.toInt)),
    (ascii "unread", .num (decimal e.unreadCount.toInt))]

def HistoryPrint.json (p : HistoryPrint) (e : HistoryEntry) : Json :=
  .obj [(ascii "id", .num (decimal e.id.toInt)), (ascii "out", .bool e.out),
    (ascii "date", .num (decimal e.date.toInt)), (ascii "text", .str (cstr e.text)),
    (ascii "complex", .bool e.complex), (ascii "media", .str (p.label e)),
    (ascii "media_id", .num (decimal (p.mediaId e))),
    (ascii "media_path", .str (cstr (p.path e)))]

def matchJson (e : HistoryEntry) : Json :=
  .obj [(ascii "id", .num (decimal e.id.toInt)), (ascii "out", .bool e.out),
    (ascii "date", .num (decimal e.date.toInt)), (ascii "text", .str (cstr e.text)),
    (ascii "complex", .bool e.complex)]

def watchedJson (e : HistoryEntry) : Json :=
  .obj [(ascii "peer_id", .num (decimal e.peerId.toInt)),
    (ascii "msg_id", .num (decimal e.id.toInt)),
    (ascii "date", .num (decimal e.date.toInt)), (ascii "text", .str (cstr e.text))]

namespace JsonReport

/-- The output is JSON and says what the command has to print: one value, or for `watch` a line for
each message. -/
def WellFormed : JsonReport → Prop
  | me info => IsText (selfJson info) (printSelfJson info)
  | contacts es => IsText (.arr (es.map contactJson)) (contacts es).print
  | userInfo r => IsText (userInfoJson r) (printUserInfo r)
  | dialogs es => IsText (.arr (es.map dialogJson)) (dialogs es).print
  | history p es =>
    IsText (.arr ((es.filter fun e => !p.skips e).map p.json)) (history p es).print
  | search es => IsText (.arr (es.map fun e => matchJson e.1)) (search es).print
  | watch peers es =>
    IsLines ((es.filter fun e => watchPeerAllowed peers e.1.peerId).map fun e => watchedJson e.1)
      (watch peers es).print

def unescaped : JsonReport → List Bytes
  | me info => [cstr info.username, cstr info.firstName, cstr info.lastName, cstr info.phone]
  | contacts es => es.flatMap fun e => [cstr e.name, cstr e.username]
  | userInfo r => [cstr r.username]
  | dialogs es => es.flatMap fun e => [cstr e.title, cstr e.username]
  | history p es =>
    (es.filter fun e => !p.skips e).flatMap fun e => [cstr e.text, cstr (p.path e)]
  | search _ => []
  | watch _ _ => []

end JsonReport

/-! ## The pieces -/

theorem clean_peerKindName (k : DialogPeerKind) : Clean (peerKindName k) := by
  cases k <;> decide

theorem clean_resolvedKindName (k : ResolvedKind) : Clean (resolvedKindName k) := by
  cases k <;> decide

theorem clean_mediaLabel (k : MediaKind) : Clean (mediaLabel k) := by
  cases k <;> decide

variable (p : HistoryPrint)

theorem HistoryPrint.clean_label (e : HistoryEntry) : Clean (p.label e) := by
  rw [label]
  split_ifs
  · decide
  · exact clean_mediaLabel e.media

theorem escapedText_eq (e : HeldEntry) : escapedText e.1 = escapeStr (cstr e.1.text) := by
  exact dst_jsonEscapeStr (by omega)

def field (name : String) (v : Piece Value) (h : Clean (ascii name)) : Piece (Member Value) :=
  .member (ascii name) h v

@[simp] theorem field_text (name : String) (v : Piece Value) (h : Clean (ascii name)) :
    (field name v h).text = Piece.quoted (ascii name) ++ 0x3A :: v.text := rfl

@[simp] theorem field_cond (name : String) (v : Piece Value) (h : Clean (ascii name)) :
    (field name v h).cond = v.cond := rfl

def selfPiece (me : SelfInfo) : Piece Value :=
  .object [field "id" (.number me.id.toInt) (by decide),
    field "username" (.raw (cstr me.username)) (by decide),
    field "first_name" (.raw (cstr me.firstName)) (by decide),
    field "last_name" (.raw (cstr me.lastName)) (by decide),
    field "phone" (.raw (cstr me.phone)) (by decide),
    field "premium" (.bool me.isPremium) (by decide),
    field "bot" (.bool me.isBot) (by decide)]

def contactPiece (e : ContactEntry) : Piece Value :=
  .object [field "user_id" (.number e.userId.toInt) (by decide),
    field "mutual" (.bool e.isMutual) (by decide),
    field "name" (.raw (cstr e.name)) (by decide),
    field "username" (.raw (cstr e.username)) (by decide)]

def userInfoPiece (r : ResolvedPeer) : Piece Value :=
  .object [field "type" (.plain (resolvedKindName r.kind) (clean_resolvedKindName _)) (by decide),
    field "id" (.number r.id.toInt) (by decide),
    field "username" (.raw (cstr r.username)) (by decide),
    field "access_hash" (.plain (ascii (if r.haveHash then "present" else "none"))
      (by cases r.haveHash <;> decide)) (by decide)]

def dialogPiece (e : DialogEntry) : Piece Value :=
  .object [field "type" (.plain (peerKindName e.kind) (clean_peerKindName _)) (by decide),
    field "id" (.number e.peerId.toInt) (by decide),
    field "title" (.raw (cstr e.title)) (by decide),
    field "username" (.raw (cstr e.username)) (by decide),
    field "top" (.number e.topMessageId.toInt) (by decide),
    field "unread" (.number e.unreadCount.toInt) (by decide)]

def HistoryPrint.piece (p : HistoryPrint) (e : HistoryEntry) : Piece Value :=
  .object [field "id" (.number e.id.toInt) (by decide), field "out" (.bool e.out) (by decide),
    field "date" (.number e.date.toInt) (by decide),
    field "text" (.raw (cstr e.text)) (by decide),
    field "complex" (.bool e.complex) (by decide),
    field "media" (.plain (p.label e) (p.clean_label e)) (by decide),
    field "media_id" (.number (p.mediaId e)) (by decide),
    field "media_path" (.raw (cstr (p.path e))) (by decide)]

def textPiece (e : HistoryEntry) : Piece Value :=
  .encoded (cstr e.text) (escapeStr (cstr e.text)) (body_escapeStr _)

def matchPiece (e : HistoryEntry) : Piece Value :=
  .object [field "id" (.number e.id.toInt) (by decide), field "out" (.bool e.out) (by decide),
    field "date" (.number e.date.toInt) (by decide), field "text" (textPiece e) (by decide),
    field "complex" (.bool e.complex) (by decide)]

def watchedPiece (e : HistoryEntry) : Piece Value :=
  .object [field "peer_id" (.number e.peerId.toInt) (by decide),
    field "msg_id" (.number e.id.toInt) (by decide),
    field "date" (.number e.date.toInt) (by decide), field "text" (textPiece e) (by decide)]

theorem printSelfJson_eq (me : SelfInfo) : printSelfJson me = (selfPiece me).text ++ [0x0A] := by
  unfold printSelfJson selfPiece
  simp only [itemsText, moreText,
    Piece.quoted, Piece.object_text, map_cons, map_nil, field_text, Piece.number_text,
    Piece.bool_text, Piece.raw_text, append_assoc, cons_append,
    nil_append]
  rfl

theorem printContact_eq (e : ContactEntry) : printContact e = (contactPiece e).text := by
  unfold printContact contactPiece
  simp [itemsText, moreText, Piece.quoted, ascii]

theorem printUserInfo_eq (r : ResolvedPeer) :
    printUserInfo r = (userInfoPiece r).text ++ [0x0A] := by
  unfold printUserInfo userInfoPiece
  simp [itemsText, moreText, Piece.quoted, ascii]

theorem printDialog_eq (e : DialogEntry) : printDialog e = (dialogPiece e).text := by
  unfold printDialog dialogPiece
  simp [itemsText, moreText, Piece.quoted, ascii]

theorem HistoryPrint.entry_eq (e : HistoryEntry) :
    p.entry e = (p.piece e).text := by
  unfold HistoryPrint.entry HistoryPrint.piece
  simp only [itemsText, moreText,
    Piece.quoted, Piece.object_text, map_cons, map_nil, field_text, Piece.number_text,
    Piece.bool_text, Piece.raw_text, Piece.plain_text, append_assoc, cons_append,
    nil_append]
  rfl

theorem printMatch_eq (e : HeldEntry) : printMatch e.1 = (matchPiece e.1).text := by
  unfold printMatch matchPiece
  simp [textPiece, escapedText_eq, itemsText, moreText, Piece.quoted, ascii]

theorem printWatched_eq (e : HeldEntry) :
    printWatched e.1 = (watchedPiece e.1).text ++ [0x0A] := by
  unfold printWatched watchedPiece
  simp [textPiece, escapedText_eq, itemsText, moreText, Piece.quoted, ascii]

/-! ## The loops -/

theorem printItems_succ {α : Type} (item : α → Bytes) (i : ℕ) (xs : List α) (close : UInt8) :
    printItems item (i + 1) xs ++ [close] = moreText close (xs.map item) := by
  induction xs generalizing i with
  | nil => rfl
  | cons x xs ih =>
    rw [printItems, if_pos (Nat.succ_ne_zero i), append_assoc, append_assoc, ih]
    rfl

theorem printItems_zero {α : Type} (item : α → Bytes) (xs : List α) :
    ascii "[" ++ printItems item 0 xs ++ ascii "]\n" =
      0x5B :: itemsText 0x5D (xs.map item) ++ [0x0A] := by
  rw [show ascii "]\n" = [0x5D] ++ [0x0A] by decide, ← append_assoc]
  cases xs with
  | nil => rfl
  | cons x xs =>
    rw [printItems, if_neg (not_not.mpr rfl), nil_append, append_assoc (ascii "["),
      append_assoc (item x), printItems_succ]
    rfl

namespace HistoryPrint

theorem loop_false (p : HistoryPrint) (es : List HistoryEntry) (close : UInt8) :
    p.loop false es ++ [close] = moreText close ((es.filter fun e => !p.skips e).map p.entry) := by
  induction es with
  | nil => rfl
  | cons e es ih =>
    rw [loop, filter_cons]
    cases p.skips e with
    | true => exact ih
    | false =>
      have hcomma : ascii "," = [0x2C] := by decide
      rw [if_neg Bool.false_ne_true, if_neg Bool.false_ne_true, if_pos (by rfl), map_cons,
        moreText, append_assoc, append_assoc, ih, hcomma, singleton_append]

theorem loop_true (p : HistoryPrint) (es : List HistoryEntry) (close : UInt8) :
    p.loop true es ++ [close] = itemsText close ((es.filter fun e => !p.skips e).map p.entry) := by
  induction es with
  | nil => rfl
  | cons e es ih =>
    rw [loop, filter_cons]
    cases p.skips e with
    | true => exact ih
    | false =>
      rw [if_neg Bool.false_ne_true, if_pos rfl, if_pos (by rfl), map_cons, itemsText,
        nil_append, append_assoc, loop_false]

end HistoryPrint

/-! ## When the output says what it should -/

theorem isText_line_iff (p : Piece Value) : IsText p.value (p.text ++ [0x0A]) ↔ p.cond :=
  p.isText_iff (by decide) ⟨[0x0A], rfl, by decide⟩

theorem isText_array_iff {α : Type} (piece : α → Piece Value) (xs : List α) :
    IsText (.arr (xs.map fun x => (piece x).value))
      (0x5B :: itemsText 0x5D (xs.map fun x => (piece x).text) ++ [0x0A]) ↔
      ∀ x ∈ xs, (piece x).cond := by
  have h := isText_line_iff (.array (xs.map piece))
  rw [Piece.array_value, Piece.array_text, Piece.array_cond, map_map, map_map,
    forall_mem_map] at h
  exact h

theorem newline_not_mem_watchedPiece (e : HistoryEntry) : 0x0A ∉ (watchedPiece e).text := by
  have hnum : ∀ n : ℤ, 0x0A ∉ decimal n := by
    intro n h
    exact absurd (number_of_mem_decimal h).1 (by decide)
  have htext := newline_not_mem_escapeStr (cstr e.text)
  unfold watchedPiece
  simp [itemsText, moreText, Piece.quoted, textPiece, ascii, hnum, htext]

theorem isLines_watched (es : List HeldEntry) :
    IsLines (es.map fun e => watchedJson e.1) (es.flatMap fun e => printWatched e.1) := by
  induction es with
  | nil => exact .nil
  | cons e es ih =>
    have htext : IsText (watchedPiece e.1).value ((watchedPiece e.1).text ++ []) :=
      ((watchedPiece e.1).isText_iff (by decide) (ws_refl [])).mpr
        (by simp [watchedPiece, textPiece])
    rw [append_nil] at htext
    rw [map_cons, flatMap_cons, printWatched_eq, append_assoc, singleton_append]
    exact .cons (newline_not_mem_watchedPiece e.1) htext ih

theorem forall_mem_pairs {α : Type} (f g : α → Bytes) (xs : List α) :
    (∀ s ∈ xs.flatMap fun x => [f x, g x], Clean s) ↔ ∀ x ∈ xs, Clean (f x) ∧ Clean (g x) := by
  simp only [mem_flatMap, mem_cons, not_mem_nil, or_false]
  constructor
  · exact fun h x hx => ⟨h _ ⟨x, hx, .inl rfl⟩, h _ ⟨x, hx, .inr rfl⟩⟩
  · rintro h s ⟨x, hx, rfl | rfl⟩
    · exact (h x hx).1
    · exact (h x hx).2

theorem cond_contactPiece (e : ContactEntry) :
    (contactPiece e).cond ↔ Clean (cstr e.name) ∧ Clean (cstr e.username) := by
  unfold contactPiece
  simp

theorem cond_dialogPiece (e : DialogEntry) :
    (dialogPiece e).cond ↔ Clean (cstr e.title) ∧ Clean (cstr e.username) := by
  unfold dialogPiece
  simp

theorem HistoryPrint.cond_piece (e : HistoryEntry) :
    (p.piece e).cond ↔ Clean (cstr e.text) ∧ Clean (cstr (p.path e)) := by
  unfold HistoryPrint.piece
  simp

theorem HistoryPrint.print_eq (es : List HistoryEntry) :
    ascii "[" ++ p.loop true es ++ ascii "]\n" =
      0x5B :: itemsText 0x5D ((es.filter fun e => !p.skips e).map fun e => (p.piece e).text) ++
        [0x0A] := by
  rw [show ascii "]\n" = [0x5D] ++ [0x0A] by decide, ← append_assoc,
    append_assoc (ascii "["), p.loop_true, funext p.entry_eq]
  rfl

namespace JsonReport

theorem history_iff (p : HistoryPrint) (es : List HistoryEntry) :
    (history p es).WellFormed ↔ ∀ s ∈ (history p es).unescaped, Clean s := by
  rw [WellFormed, print, p.print_eq]
  exact (isText_array_iff p.piece _).trans
    ((forall₂_congr fun e _ => p.cond_piece e).trans (forall_mem_pairs _ _ _).symm)

/-- **The output says what it should exactly if the strings that are not escaped need no
escaping.** -/
theorem wellFormed_iff (r : JsonReport) : r.WellFormed ↔ ∀ s ∈ r.unescaped, Clean s := by
  cases r with
  | me info =>
    rw [WellFormed, printSelfJson_eq]
    exact (isText_line_iff (selfPiece info)).trans (by simp [selfPiece, unescaped])
  | contacts es =>
    rw [WellFormed, print, printItems_zero, funext printContact_eq]
    exact (isText_array_iff contactPiece es).trans
      ((forall₂_congr fun e _ => cond_contactPiece e).trans (forall_mem_pairs _ _ _).symm)
  | userInfo r =>
    rw [WellFormed, printUserInfo_eq]
    exact (isText_line_iff (userInfoPiece r)).trans (by simp [userInfoPiece, unescaped])
  | dialogs es =>
    rw [WellFormed, print, printItems_zero, funext printDialog_eq]
    exact (isText_array_iff dialogPiece es).trans
      ((forall₂_congr fun e _ => cond_dialogPiece e).trans (forall_mem_pairs _ _ _).symm)
  | history p es => exact history_iff p es
  | search es =>
    rw [WellFormed, print, printItems_zero, funext printMatch_eq]
    exact (isText_array_iff (fun e : HeldEntry => matchPiece e.1) es).trans
      (by simp [matchPiece, textPiece, unescaped])
  | watch peers es => exact iff_of_true (isLines_watched _) (by simp [unescaped])

/-- A message with a quotation in it ends the literal too early. -/
theorem quotation_breaks_history :
    ¬ (history ⟨false, fun _ => none⟩
      [{ HistoryEntry.zero with id := 7, text := ascii "say \"hi\"" }]).WellFormed := by
  rw [history_iff]
  decide

end JsonReport

end TgCli.Main

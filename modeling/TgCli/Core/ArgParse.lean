import TgCli.Lib.Decimal

/-!
# `core/arg_parse.c`: the command line

`arg_parse` reads the global flags, then the subcommand and its arguments.  An argument is a byte
string without its terminator.  The option loops of the subcommands differ in their options and in
the texts of their messages; they are one function, `optionLoop`, over a list of options.

Numbers are read by `parse_int`, which takes what `strtol` returns and casts it to `int`.  The
second half of the file compares the result with the numbers that were given: `numberArgs` says
which words of the command line are the arguments of which integer fields, and `exact_iff` says
that the fields have their values exactly if all of them fit an `int`.
-/

namespace TgCli.Core

open Option Lib

/-! ## Results -/

inductive ArgCommand where
  | none
  | dialogs
  | history
  | send
  | search
  | contacts
  | userInfo
  | me
  | watch
  | download
  | read
  | edit
  | delete
  | forward
  | sendFile
  | login
  deriving DecidableEq

structure ArgResult where
  json : Bool
  quiet : Bool
  configPath : Option Bytes
  phone : Option Bytes
  code : Option Bytes
  password : Option Bytes
  command : ArgCommand
  peer : Option Bytes
  message : Option Bytes
  query : Option Bytes
  limit : Int32
  archived : Bool
  offset : Int32
  msgId : Int32
  outPath : Option Bytes
  peer2 : Option Bytes
  revoke : Bool
  replyTo : Int32
  watchInterval : Int32
  watchPeers : Option Bytes
  noMedia : Bool
  apiIdStr : Option Bytes
  apiHashStr : Option Bytes
  force : Bool
  deriving DecidableEq

/-- What `arg_parse` starts from: zeros, and a limit that is not set. -/
def ArgResult.initial : ArgResult :=
  ⟨false, false, none, none, none, none, .none, none, none, none, -1, false, 0, 0, none, none,
    false, 0, 0, none, false, none, none, false⟩

/-- The results other than `ARG_OK`; an error comes with what goes to `stderr`. -/
inductive ArgStop where
  | help
  | version
  | error (msg : Bytes)
  deriving DecidableEq

/-- The integer fields of `ArgResult` that are filled from arguments. -/
inductive IntField where
  | limit
  | offset
  | msgId
  | replyTo
  | watchInterval
  deriving DecidableEq

namespace ArgResult

def get (r : ArgResult) : IntField → Int32
  | .limit => r.limit
  | .offset => r.offset
  | .msgId => r.msgId
  | .replyTo => r.replyTo
  | .watchInterval => r.watchInterval

def set (r : ArgResult) (n : Int32) : IntField → ArgResult
  | .limit => { r with limit := n }
  | .offset => { r with offset := n }
  | .msgId => { r with msgId := n }
  | .replyTo => { r with replyTo := n }
  | .watchInterval => { r with watchInterval := n }

end ArgResult

/-! ## Parsing -/

def parseInt (s : Bytes) : Option Int32 :=
  if s = [] then none
  else if strtolEnd s ≠ [] then none
  else some (Int32.ofInt (strtol s))

/-- An option of a subcommand: a flag, an option with a text, or one with a number.  `missing` and
`notNumber` are what is printed when there is no argument or no number, and `range` gives the
bounds of the number. -/
inductive CliOption where
  | flag (name : String) (set : ArgResult → ArgResult)
  | text (name : String) (missing : String) (set : Bytes → ArgResult → ArgResult)
  | number (name : String) (missing notNumber : String)
      (range : Option (Int32 × Int32 × String × String)) (field : IntField)

def CliOption.name : CliOption → Bytes
  | flag name _ => ascii name
  | text name _ _ => ascii name
  | number name _ _ _ _ => ascii name

/-- The check of a number against its bounds, with the text of the error around the number. -/
def outOfRange (n : Int32) : Option (Int32 × Int32 × String × String) → Option Bytes
  | none => none
  | some (lo, hi, before, after) =>
    if n < lo ∨ hi < n then some (ascii before ++ decimal n.toInt ++ ascii after) else none

def optionLoop (command : String) (opts : List CliOption) :
    List Bytes → ArgResult → Except ArgStop ArgResult
  | [], out => .ok out
  | a :: rest, out =>
    match opts.find? fun o => o.name = a with
    | none => .error (.error (ascii command ++ ascii ": unknown option: " ++ a ++ ascii "\n"))
    | some (.flag _ set) => optionLoop command opts rest (set out)
    | some (.text _ missing set) =>
      match rest with
      | [] => .error (.error (ascii missing))
      | v :: rest => optionLoop command opts rest (set v out)
    | some (.number _ missing notNumber range field) =>
      match rest with
      | [] => .error (.error (ascii missing))
      | v :: rest =>
        match parseInt v with
        | none => .error (.error (ascii notNumber))
        | some n =>
          match outOfRange n range with
          | some msg => .error (.error msg)
          | none => optionLoop command opts rest (out.set n field)

def isDash (a : Bytes) : Bool :=
  a.head? == some 0x2D

def dialogsOptions : List CliOption :=
  [.number "--limit" "tg-cli dialogs: --limit requires a number\n"
      "tg-cli dialogs: --limit value is not a number\n"
      (some (1, 1000, "tg-cli dialogs: --limit ", " out of range [1, 1000]\n")) .limit,
    .flag "--archived" fun out => { out with archived := true }]

def parseDialogs (args : List Bytes) (out : ArgResult) : Except ArgStop ArgResult :=
  optionLoop "tg-cli dialogs" dialogsOptions args { out with command := .dialogs, limit := 20 }

def historyOptions : List CliOption :=
  [.number "--limit" "tg-cli history: --limit requires a number\n"
      "tg-cli history: --limit value is not a number\n"
      (some (1, 1000, "tg-cli history: --limit ", " out of range [1, 1000]\n")) .limit,
    .number "--offset" "tg-cli history: --offset requires a number\n"
      "tg-cli history: --offset value is not a number\n" none .offset,
    .flag "--no-media" fun out => { out with noMedia := true }]

def parseHistory (args : List Bytes) (out : ArgResult) : Except ArgStop ArgResult :=
  match args with
  | [] => .error (.error (ascii "tg-cli history: <peer> argument required\n"))
  | peer :: rest =>
    if isDash peer then
      .error (.error (ascii "tg-cli history: <peer> argument required before options\n"))
    else
      optionLoop "tg-cli history" historyOptions rest
        { out with command := .history, limit := 50, offset := 0, peer := some peer }

/-- The loop of `parse_send`, which ends at the first word that is not an option; that word is the
message, and what follows it is not looked at. -/
def sendLoop : List Bytes → ArgResult → Except ArgStop ArgResult
  | [], out => .ok out
  | a :: rest, out =>
    if isDash a then
      if a = ascii "--reply" then
        match rest with
        | [] => .error (.error (ascii "tg-cli send: --reply needs a positive message id\n"))
        | v :: rest =>
          match parseInt v with
          | none => .error (.error (ascii "tg-cli send: --reply needs a positive message id\n"))
          | some n =>
            if n ≤ 0 then
              .error (.error (ascii "tg-cli send: --reply needs a positive message id\n"))
            else sendLoop rest (out.set n .replyTo)
      else if a = ascii "--stdin" then sendLoop rest out
      else .error (.error (ascii "tg-cli send: unknown option: " ++ a ++ ascii "\n"))
    else .ok { out with message := some a }

def parseSend (args : List Bytes) (out : ArgResult) : Except ArgStop ArgResult :=
  match args with
  | [] => .error (.error (ascii "tg-cli send: <peer> argument required\n"))
  | peer :: rest =>
    if isDash peer then
      .error (.error (ascii "tg-cli send: <peer> argument required before options\n"))
    else sendLoop rest { out with command := .send, peer := some peer }

def searchOptions : List CliOption :=
  [.number "--limit" "tg-cli search: --limit requires a number\n"
    "tg-cli search: --limit value is not a number\n"
    (some (1, 100, "tg-cli search: --limit ", " out of range [1, 100]\n")) .limit]

def parseSearch (args : List Bytes) (out : ArgResult) : Except ArgStop ArgResult :=
  let out := { out with command := .search, limit := 20 }
  match args with
  | [] => .error (.error (ascii "tg-cli search: <query> argument required\n"))
  | [a] =>
    if isDash a then .error (.error (ascii "tg-cli search: <query> argument required\n"))
    else optionLoop "tg-cli search" searchOptions [] { out with query := some a }
  | a :: b :: rest =>
    if isDash a then .error (.error (ascii "tg-cli search: <query> argument required\n"))
    else if isDash b then
      optionLoop "tg-cli search" searchOptions (b :: rest) { out with query := some a }
    else
      optionLoop "tg-cli search" searchOptions rest { out with peer := some a, query := some b }

def parseContacts (out : ArgResult) : Except ArgStop ArgResult :=
  .ok { out with command := .contacts }

def parseMe (out : ArgResult) : Except ArgStop ArgResult :=
  .ok { out with command := .me }

def watchOptions : List CliOption :=
  [.text "--peers" "tg-cli watch: --peers requires a value\n"
      fun v out => { out with watchPeers := some v },
    .number "--interval" "tg-cli watch: --interval requires a number\n"
      "tg-cli watch: --interval value is not a number\n"
      (some (2, 3600, "tg-cli watch: --interval ", " out of range [2, 3600]\n")) .watchInterval]

def parseWatch (args : List Bytes) (out : ArgResult) : Except ArgStop ArgResult :=
  optionLoop "tg-cli watch" watchOptions args { out with command := .watch, watchInterval := 30 }

def parseUserInfo (args : List Bytes) (out : ArgResult) : Except ArgStop ArgResult :=
  match args with
  | [] => .error (.error (ascii "tg-cli user-info: <peer> argument required\n"))
  | peer :: _ => .ok { out with command := .userInfo, peer := some peer }

def positiveId (msg : String) (v : Bytes) : Except ArgStop Int32 :=
  match parseInt v with
  | none => .error (.error (ascii msg))
  | some n => if n ≤ 0 then .error (.error (ascii msg)) else .ok n

def downloadOptions : List CliOption :=
  [.text "--out" "tg-cli download: --out requires a path\n"
    fun v out => { out with outPath := some v }]

def parseDownload (args : List Bytes) (out : ArgResult) : Except ArgStop ArgResult :=
  match args with
  | [] => .error (.error (ascii "tg-cli download: <peer> argument required\n"))
  | peer :: args =>
    if isDash peer then .error (.error (ascii "tg-cli download: <peer> argument required\n"))
    else
      match args with
      | [] => .error (.error (ascii "tg-cli download: <msg_id> argument required\n"))
      | v :: rest =>
        if isDash v then .error (.error (ascii "tg-cli download: <msg_id> argument required\n"))
        else
          match positiveId "tg-cli download: <msg_id> must be a positive integer\n" v with
          | .error e => .error e
          | .ok n =>
            optionLoop "tg-cli download" downloadOptions rest
              { out with command := .download, peer := some peer, msgId := n }

def parseEdit (args : List Bytes) (out : ArgResult) : Except ArgStop ArgResult :=
  match args with
  | [] => .error (.error (ascii "tg-cli edit: <peer> required\n"))
  | peer :: args =>
    if isDash peer then .error (.error (ascii "tg-cli edit: <peer> required\n"))
    else
      match args with
      | [] => .error (.error (ascii "tg-cli edit: positive <msg_id> required\n"))
      | v :: rest =>
        match positiveId "tg-cli edit: positive <msg_id> required\n" v with
        | .error e => .error e
        | .ok n =>
          match rest with
          | [] => .error (.error (ascii "tg-cli edit: <new-text> required\n"))
          | text :: _ =>
            .ok { out with command := .edit, peer := some peer, msgId := n, message := some text }

def deleteOptions : List CliOption :=
  [.flag "--revoke" fun out => { out with revoke := true }]

def parseDelete (args : List Bytes) (out : ArgResult) : Except ArgStop ArgResult :=
  match args with
  | [] => .error (.error (ascii "tg-cli delete: <peer> required\n"))
  | peer :: args =>
    if isDash peer then .error (.error (ascii "tg-cli delete: <peer> required\n"))
    else
      match args with
      | [] => .error (.error (ascii "tg-cli delete: positive <msg_id> required\n"))
      | v :: rest =>
        match positiveId "tg-cli delete: positive <msg_id> required\n" v with
        | .error e => .error e
        | .ok n =>
          optionLoop "tg-cli delete" deleteOptions rest
            { out with command := .delete, peer := some peer, msgId := n }

def sendFileOptions : List CliOption :=
  [.text "--caption" "tg-cli send-file: --caption needs text\n"
    fun v out => { out with message := some v }]

def parseSendFile (args : List Bytes) (out : ArgResult) : Except ArgStop ArgResult :=
  match args with
  | peer :: path :: rest =>
    optionLoop "tg-cli send-file" sendFileOptions rest
      { out with command := .sendFile, peer := some peer, outPath := some path }
  | _ => .error (.error (ascii "tg-cli send-file: <peer> <path> required\n"))

def parseForward (args : List Bytes) (out : ArgResult) : Except ArgStop ArgResult :=
  match args with
  | peer :: peer2 :: v :: _ =>
    match positiveId "tg-cli forward: positive <msg_id> required\n" v with
    | .error e => .error e
    | .ok n =>
      .ok { out with command := .forward, peer := some peer, peer2 := some peer2, msgId := n }
  | _ => .error (.error (ascii "tg-cli forward: <from_peer> <to_peer> <msg_id> required\n"))

/-- `read`; what follows the peer is looked at only if it is `--max-id`. -/
def parseRead (args : List Bytes) (out : ArgResult) : Except ArgStop ArgResult :=
  match args with
  | [] => .error (.error (ascii "tg-cli read: <peer> argument required\n"))
  | peer :: args =>
    if isDash peer then .error (.error (ascii "tg-cli read: <peer> argument required\n"))
    else
      let out := { out with command := .read, peer := some peer }
      match args with
      | [] => .ok out
      | a :: rest =>
        if a = ascii "--max-id" then
          match rest with
          | [] => .error (.error (ascii "tg-cli read: --max-id needs a number\n"))
          | v :: _ =>
            match parseInt v with
            | none => .error (.error (ascii "tg-cli read: --max-id needs a number\n"))
            | some n => .ok { out with msgId := n }
        else .ok out

def loginOptions : List CliOption :=
  [.text "--api-id" "tg-cli login: --api-id requires a value\n"
      fun v out => { out with apiIdStr := some v },
    .text "--api-hash" "tg-cli login: --api-hash requires a value\n"
      fun v out => { out with apiHashStr := some v },
    .flag "--force" fun out => { out with force := true }]

def parseLogin (args : List Bytes) (out : ArgResult) : Except ArgStop ArgResult :=
  optionLoop "tg-cli login" loginOptions args { out with command := .login }

/-- The global flags in front of the subcommand.  A flag that is none of them is left to be taken
for the subcommand. -/
def globalFlags : List Bytes → ArgResult → Except ArgStop (ArgResult × List Bytes)
  | [], out => .ok (out, [])
  | a :: rest, out =>
    if !isDash a then .ok (out, a :: rest)
    else if a = ascii "--json" then globalFlags rest { out with json := true }
    else if a = ascii "--quiet" then globalFlags rest { out with quiet := true }
    else if a = ascii "--help" ∨ a = ascii "-h" then .error .help
    else if a = ascii "--version" ∨ a = ascii "-v" then .error .version
    else if a = ascii "--config" then
      match rest with
      | [] => .error (.error (ascii "tg-cli: --config requires a value\n"))
      | v :: rest => globalFlags rest { out with configPath := some v }
    else if a = ascii "--phone" then
      match rest with
      | [] => .error (.error (ascii "tg-cli: --phone requires a value\n"))
      | v :: rest => globalFlags rest { out with phone := some v }
    else if a = ascii "--code" then
      match rest with
      | [] => .error (.error (ascii "tg-cli: --code requires a value\n"))
      | v :: rest => globalFlags rest { out with code := some v }
    else if a = ascii "--password" then
      match rest with
      | [] => .error (.error (ascii "tg-cli: --password requires a value\n"))
      | v :: rest => globalFlags rest { out with password := some v }
    else .ok (out, a :: rest)

def parseSubcommand (subcmd : Bytes) (args : List Bytes) (out : ArgResult) :
    Except ArgStop ArgResult :=
  if subcmd = ascii "dialogs" then parseDialogs args out
  else if subcmd = ascii "history" then parseHistory args out
  else if subcmd = ascii "send" then parseSend args out
  else if subcmd = ascii "search" then parseSearch args out
  else if subcmd = ascii "contacts" then parseContacts out
  else if subcmd = ascii "user-info" then parseUserInfo args out
  else if subcmd = ascii "me" ∨ subcmd = ascii "self" then parseMe out
  else if subcmd = ascii "watch" then parseWatch args out
  else if subcmd = ascii "download" then parseDownload args out
  else if subcmd = ascii "edit" then parseEdit args out
  else if subcmd = ascii "delete" then parseDelete args out
  else if subcmd = ascii "send-file" ∨ subcmd = ascii "upload" then parseSendFile args out
  else if subcmd = ascii "forward" then parseForward args out
  else if subcmd = ascii "read" then parseRead args out
  else if subcmd = ascii "login" then parseLogin args out
  else if subcmd = ascii "help" then .error .help
  else if subcmd = ascii "version" then .error .version
  else .error (.error (ascii "tg-cli: unknown subcommand: " ++ subcmd ++ ascii "\n"))

/-- `arg_parse` behind the name of the program, from any result. -/
def parseWords (words : List Bytes) (out : ArgResult) : Except ArgStop ArgResult :=
  match globalFlags words out with
  | .error e => .error e
  | .ok (out, []) =>
    if out.json then .error (.error (ascii "tg-cli: subcommand required\n")) else .ok out
  | .ok (out, subcmd :: args) => parseSubcommand subcmd args out

/-- `arg_parse`; the first word is the name of the program. -/
def argParse (argv : List Bytes) : Except ArgStop ArgResult :=
  parseWords argv.tail .initial

/-! ## The numbers on a command line -/

def optionNumbers (opts : List CliOption) : List Bytes → List (IntField × Bytes)
  | [] => []
  | a :: rest =>
    match opts.find? fun o => o.name = a with
    | none => optionNumbers opts rest
    | some (.flag _ _) => optionNumbers opts rest
    | some (.text _ _ _) =>
      match rest with
      | [] => []
      | _ :: rest => optionNumbers opts rest
    | some (.number _ _ _ _ field) =>
      match rest with
      | [] => []
      | v :: rest => (field, v) :: optionNumbers opts rest

/-- The arguments of `--reply` in front of the message. -/
def replyNumbers : List Bytes → List (IntField × Bytes)
  | [] => []
  | a :: rest =>
    if isDash a then
      if a = ascii "--reply" then
        match rest with
        | [] => []
        | v :: rest => (.replyTo, v) :: replyNumbers rest
      else replyNumbers rest
    else []

def idAt (args : List Bytes) (i : ℕ) : List (IntField × Bytes) :=
  (args[i]?).toList.map fun v => (.msgId, v)

/-- The argument of `--max-id` behind the peer. -/
def maxIdNumbers : List Bytes → List (IntField × Bytes)
  | _ :: a :: v :: _ => if a = ascii "--max-id" then [(.msgId, v)] else []
  | _ => []

/-- The words that a subcommand takes for numbers, each with the field it is for. -/
def commandNumbers (subcmd : Bytes) (args : List Bytes) : List (IntField × Bytes) :=
  if subcmd = ascii "dialogs" then optionNumbers dialogsOptions args
  else if subcmd = ascii "history" then optionNumbers historyOptions args.tail
  else if subcmd = ascii "send" then replyNumbers args.tail
  else if subcmd = ascii "search" then optionNumbers searchOptions args
  else if subcmd = ascii "contacts" then []
  else if subcmd = ascii "user-info" then []
  else if subcmd = ascii "me" ∨ subcmd = ascii "self" then []
  else if subcmd = ascii "watch" then optionNumbers watchOptions args
  else if subcmd = ascii "download" then idAt args 1
  else if subcmd = ascii "edit" then idAt args 1
  else if subcmd = ascii "delete" then idAt args 1
  else if subcmd = ascii "send-file" ∨ subcmd = ascii "upload" then []
  else if subcmd = ascii "forward" then idAt args 2
  else if subcmd = ascii "read" then maxIdNumbers args
  else []

/-- The words of a command line that are taken for numbers, each with the field it is for. -/
def numberArgs (argv : List Bytes) : List (IntField × Bytes) :=
  match globalFlags argv.tail .initial with
  | .ok (_, subcmd :: args) => commandNumbers subcmd args
  | _ => []

def lastFor (f : IntField) : List (IntField × Bytes) → Option Bytes
  | [] => none
  | p :: ps => (lastFor f ps).or (if p.1 = f then some p.2 else none)

/-- A numeral whose value an `int` can hold. -/
def fitsInt (t : Bytes) : Bool :=
  (numeral t).any fun v => -2 ^ 31 ≤ v && v < 2 ^ 31

/-- The integer fields are the numbers that were given, and no number was taken for another one on
the way. -/
structure Exact (argv : List Bytes) (r : ArgResult) : Prop where
  value : ∀ f t, lastFor f (numberArgs argv) = some t → numeral t = some (r.get f).toInt
  unreduced : ∀ p ∈ numberArgs argv, numeral p.2 = (parseInt p.2).map Int32.toInt

/-! ## `parse_int` -/

theorem parseInt_eq (s : Bytes) :
    parseInt s = (numeral s).map fun v => Int32.ofInt (max (-2 ^ 63) (min (2 ^ 63 - 1) v)) := by
  by_cases hs : s = []
  · subst hs
    rfl
  · rw [parseInt, if_neg hs]
    rcases hnum : numeral s with _ | v
    · have hend : strtolEnd s ≠ [] := fun h => by
        rw [strtolEnd_eq_nil_iff hs, hnum] at h
        exact absurd h (by simp)
      rw [if_pos hend]
      rfl
    · have hend : strtolEnd s = [] := by
        rw [strtolEnd_eq_nil_iff hs, hnum]
        rfl
      rw [if_neg (not_not.mpr hend), strtol_of_numeral hnum]
      rfl

theorem numeral_eq_iff {t : Bytes} {n : Int32} (h : parseInt t = some n) :
    numeral t = some n.toInt ↔ fitsInt t = true := by
  have hlo := n.le_toInt
  have hhi := n.toInt_lt
  rw [parseInt_eq, map_eq_some_iff] at h
  obtain ⟨v, hv, hn⟩ := h
  rw [fitsInt, hv, any_some, some.injEq, Bool.and_eq_true, decide_eq_true_eq,
    decide_eq_true_eq]
  constructor
  · rintro rfl
    exact ⟨hlo, hhi⟩
  · rintro ⟨hge, hlt⟩
    rw [← hn, Int32.toInt_ofInt_of_le (by omega) (by omega)]
    omega

/-! ## What a subcommand fills -/

@[simp] theorem ArgResult.get_set (r : ArgResult) (n : Int32) (f g : IntField) :
    (r.set n f).get g = if f = g then n else r.get g := by
  cases f <;> cases g <;> rfl

/-- `r` comes from `out` by reading the given numbers into their fields, one after the other. -/
inductive Fills : ArgResult → List (IntField × Bytes) → ArgResult → Prop
  | done {out r : ArgResult} : r.get = out.get → Fills out [] r
  | fill {out r : ArgResult} {f : IntField} {t : Bytes} {n : Int32} {ps : List (IntField × Bytes)} :
      parseInt t = some n → Fills (out.set n f) ps r → Fills out ((f, t) :: ps) r

namespace Fills

theorem congr {out out' r : ArgResult} {ps : List (IntField × Bytes)} (h : Fills out ps r)
    (heq : out.get = out'.get) : Fills out' ps r := by
  induction h generalizing out' with
  | done hr => exact .done (hr.trans heq)
  | fill ht _ ih =>
    refine .fill ht (ih (funext fun g => ?_))
    rw [ArgResult.get_set, ArgResult.get_set, heq]

theorem get_eq {out r : ArgResult} {ps : List (IntField × Bytes)} (h : Fills out ps r)
    (f : IntField) :
    (∀ t, lastFor f ps = some t → parseInt t = some (r.get f)) ∧
      (lastFor f ps = none → r.get f = out.get f) := by
  induction h with
  | done hr => exact ⟨fun t ht => absurd ht (by simp [lastFor]), fun _ => congrFun hr f⟩
  | @fill out r g t n ps ht _ ih =>
    rw [lastFor]
    rcases hlast : lastFor f ps with _ | t'
    · have hr := ih.2 hlast
      rw [ArgResult.get_set] at hr
      rw [none_or]
      split_ifs at hr ⊢ with hg
      · refine ⟨fun t' ht' => ?_, fun hn => absurd hn (by simp)⟩
        rw [← some.inj ht', ht, hr]
      · exact ⟨fun t' ht' => absurd ht' (by simp), fun _ => hr⟩
    · rw [some_or]
      exact ⟨fun t'' ht'' => ih.1 t'' (hlast.trans ht''), fun hn => absurd hn (by simp)⟩

end Fills

/-- An option without a number leaves the integer fields alone. -/
def CliOption.Quiet : CliOption → Prop
  | flag _ set => ∀ out, (set out).get = out.get
  | text _ _ set => ∀ v out, (set v out).get = out.get
  | number _ _ _ _ _ => True

variable {args : List Bytes} {r out : ArgResult} {opts : List CliOption}

theorem fills_optionLoop {command : String}
    (hopts : ∀ o ∈ opts, o.Quiet) (h : optionLoop command opts args out = .ok r) :
    Fills out (optionNumbers opts args) r := by
  fun_induction optionLoop command opts args out with
  | case1 out => exact .done (congrArg _ (Except.ok.inj h).symm)
  | case2 => cases h
  | case3 a rest out name set ho ih =>
    have hquiet : CliOption.Quiet (.flag name set) := hopts _ (List.mem_of_find?_eq_some ho)
    rw [optionNumbers.eq_def]
    simp only [ho]
    exact (ih h).congr (hquiet out)
  | case4 => cases h
  | case5 a out name missing set ho v rest ih =>
    have hquiet : CliOption.Quiet (.text name missing set) :=
      hopts _ (List.mem_of_find?_eq_some ho)
    rw [optionNumbers, ho]
    exact (ih h).congr (hquiet v out)
  | case6 => cases h
  | case7 => cases h
  | case8 => cases h
  | case9 a out name missing notNumber range field ho v rest n hn hrange ih =>
    rw [optionNumbers, ho]
    exact .fill hn (ih h)

theorem optionNumbers_cons {a : Bytes} (rest : List Bytes)
    (hopts : ∀ o ∈ opts, isDash o.name = true) (ha : isDash a = false) :
    optionNumbers opts (a :: rest) = optionNumbers opts rest := by
  have hfind : (opts.find? fun o => o.name = a) = none := by
    rw [List.find?_eq_none]
    intro o ho hname
    have hdash := hopts o ho
    rw [of_decide_eq_true hname, ha] at hdash
    exact Bool.false_ne_true hdash
  rw [optionNumbers.eq_def]
  simp only [hfind]

theorem quiet_dialogsOptions : ∀ o ∈ dialogsOptions, o.Quiet :=
  List.forall_mem_cons.mpr ⟨trivial, List.forall_mem_singleton.mpr fun _ => rfl⟩

theorem quiet_historyOptions : ∀ o ∈ historyOptions, o.Quiet :=
  List.forall_mem_cons.mpr ⟨trivial,
    List.forall_mem_cons.mpr ⟨trivial, List.forall_mem_singleton.mpr fun _ => rfl⟩⟩

theorem quiet_searchOptions : ∀ o ∈ searchOptions, o.Quiet :=
  List.forall_mem_singleton.mpr trivial

theorem quiet_watchOptions : ∀ o ∈ watchOptions, o.Quiet :=
  List.forall_mem_cons.mpr ⟨fun _ _ => rfl, List.forall_mem_singleton.mpr trivial⟩

theorem quiet_downloadOptions : ∀ o ∈ downloadOptions, o.Quiet :=
  List.forall_mem_singleton.mpr fun _ _ => rfl

theorem quiet_deleteOptions : ∀ o ∈ deleteOptions, o.Quiet :=
  List.forall_mem_singleton.mpr fun _ => rfl

def CliOption.takesNumber : CliOption → Bool
  | number _ _ _ _ _ => true
  | _ => false

theorem optionNumbers_eq_nil (hopts : ∀ o ∈ opts, o.takesNumber = false) (args : List Bytes) :
    optionNumbers opts args = [] := by
  fun_induction optionNumbers opts args with
  | case1 => rfl
  | case2 _ _ _ ih => exact ih
  | case3 _ _ _ _ _ ih => exact ih
  | case4 => rfl
  | case5 _ _ _ _ _ _ _ ih => exact ih
  | case6 => rfl
  | case7 _ _ _ _ _ _ ho =>
    exact absurd (hopts _ (List.mem_of_find?_eq_some ho)).symm Bool.false_ne_true

/-- Without a number among the options, the integer fields are left alone. -/
theorem get_optionLoop {command : String} (hopts : ∀ o ∈ opts, o.Quiet)
    (hnone : ∀ o ∈ opts, o.takesNumber = false) (h : optionLoop command opts args out = .ok r) :
    r.get = out.get := by
  have hfills := fills_optionLoop hopts h
  rw [optionNumbers_eq_nil hnone] at hfills
  cases hfills with
  | done hr => exact hr

theorem fills_sendLoop (h : sendLoop args out = .ok r) :
    Fills out (replyNumbers args) r := by
  fun_induction sendLoop args out with
  | case1 out => exact .done (congrArg _ (Except.ok.inj h).symm)
  | case2 => cases h
  | case3 => cases h
  | case4 => cases h
  | case5 out v rest n hn _ hdash ih =>
    rw [replyNumbers.eq_def]
    exact .fill hn (ih h)
  | case6 rest out hdash hreply ih =>
    rw [replyNumbers.eq_def]
    exact ih h
  | case7 => cases h
  | case8 a rest out hdash =>
    rw [replyNumbers.eq_def]
    simp only [hdash, Bool.false_eq_true, if_false]
    exact .done (congrArg ArgResult.get (Except.ok.inj h)).symm

theorem positiveId_eq {msg : String} {v : Bytes} {n : Int32} (h : positiveId msg v = .ok n) :
    parseInt v = some n := by
  rw [positiveId] at h
  rcases hv : parseInt v with _ | m <;> rw [hv] at h
  · cases h
  · dsimp only at h
    split_ifs at h
    exact congrArg some (Except.ok.inj h)

/-- A subcommand that goes on has read its message id. -/
theorem exists_positiveId {msg : String} {v : Bytes} {k : Int32 → Except ArgStop ArgResult}
    (h : (match positiveId msg v with
      | .error e => Except.error e
      | .ok n => k n) = .ok r) : ∃ n, positiveId msg v = .ok n ∧ k n = .ok r := by
  rcases hid : positiveId msg v with e | n <;> rw [hid] at h
  · cases h
  · exact ⟨n, rfl, h⟩

theorem fills_id {v : Bytes} (hv : parseInt v = some r.msgId) :
    ∃ out, Fills out [(.msgId, v)] r := by
  refine ⟨r, .fill hv (.done (funext fun f => ?_))⟩
  rw [ArgResult.get_set]
  split_ifs with hf
  · rw [← hf]
    rfl
  · rfl

theorem fills_parseHistory (h : parseHistory args out = .ok r) :
    ∃ out', Fills out' (optionNumbers historyOptions args.tail) r := by
  rw [parseHistory.eq_def] at h
  rcases args with _ | ⟨peer, rest⟩
  · cases h
  · dsimp only at h
    split_ifs at h
    exact ⟨_, fills_optionLoop quiet_historyOptions h⟩

theorem fills_parseSend (h : parseSend args out = .ok r) :
    ∃ out', Fills out' (replyNumbers args.tail) r := by
  rw [parseSend.eq_def] at h
  rcases args with _ | ⟨peer, rest⟩
  · cases h
  · dsimp only at h
    split_ifs at h
    exact ⟨_, fills_sendLoop h⟩

theorem dash_searchOptions : ∀ o ∈ searchOptions, isDash o.name = true := by
  decide

theorem fills_parseSearch (h : parseSearch args out = .ok r) :
    ∃ out', Fills out' (optionNumbers searchOptions args) r := by
  rw [parseSearch.eq_def] at h
  rcases args with _ | ⟨a, _ | ⟨b, rest⟩⟩
  · cases h
  · dsimp only at h
    split_ifs at h with ha
    rw [optionNumbers_cons _ dash_searchOptions (Bool.not_eq_true _ ▸ ha)]
    exact ⟨_, fills_optionLoop quiet_searchOptions h⟩
  · dsimp only at h
    split_ifs at h with ha hb
    · rw [optionNumbers_cons _ dash_searchOptions (Bool.not_eq_true _ ▸ ha)]
      exact ⟨_, fills_optionLoop quiet_searchOptions h⟩
    · rw [optionNumbers_cons _ dash_searchOptions (Bool.not_eq_true _ ▸ ha),
        optionNumbers_cons _ dash_searchOptions (Bool.not_eq_true _ ▸ hb)]
      exact ⟨_, fills_optionLoop quiet_searchOptions h⟩

theorem fills_parseDownload
    (h : parseDownload args out = .ok r) : ∃ out', Fills out' (idAt args 1) r := by
  rw [parseDownload.eq_def] at h
  rcases args with _ | ⟨peer, _ | ⟨v, rest⟩⟩
  · cases h
  · dsimp only at h
    split_ifs at h
  · dsimp only at h
    split_ifs at h
    obtain ⟨n, hv, h⟩ := exists_positiveId h
    have hid : r.msgId = n := congrFun (get_optionLoop quiet_downloadOptions (by decide) h) .msgId
    exact fills_id (hid ▸ positiveId_eq hv)

theorem fills_parseEdit (h : parseEdit args out = .ok r) :
    ∃ out', Fills out' (idAt args 1) r := by
  rw [parseEdit.eq_def] at h
  rcases args with _ | ⟨peer, _ | ⟨v, rest⟩⟩
  · cases h
  · dsimp only at h
    split_ifs at h
  · dsimp only at h
    split_ifs at h
    obtain ⟨n, hv, h⟩ := exists_positiveId h
    rcases rest with _ | ⟨text, rest⟩
    · cases h
    · have hid : n = r.msgId := congrArg ArgResult.msgId (Except.ok.inj h)
      exact fills_id (hid ▸ positiveId_eq hv)

theorem fills_parseDelete
    (h : parseDelete args out = .ok r) : ∃ out', Fills out' (idAt args 1) r := by
  rw [parseDelete.eq_def] at h
  rcases args with _ | ⟨peer, _ | ⟨v, rest⟩⟩
  · cases h
  · dsimp only at h
    split_ifs at h
  · dsimp only at h
    split_ifs at h
    obtain ⟨n, hv, h⟩ := exists_positiveId h
    have hid : r.msgId = n := congrFun (get_optionLoop quiet_deleteOptions (by decide) h) .msgId
    exact fills_id (hid ▸ positiveId_eq hv)

theorem fills_parseForward
    (h : parseForward args out = .ok r) : ∃ out', Fills out' (idAt args 2) r := by
  rw [parseForward.eq_def] at h
  rcases args with _ | ⟨peer, _ | ⟨peer2, _ | ⟨v, rest⟩⟩⟩
  · cases h
  · cases h
  · cases h
  · dsimp only at h
    obtain ⟨n, hv, h⟩ := exists_positiveId h
    have hid : n = r.msgId := congrArg ArgResult.msgId (Except.ok.inj h)
    exact fills_id (hid ▸ positiveId_eq hv)

theorem fills_parseRead (h : parseRead args out = .ok r) :
    ∃ out', Fills out' (maxIdNumbers args) r := by
  rw [parseRead.eq_def] at h
  rcases args with _ | ⟨peer, _ | ⟨a, rest⟩⟩
  · cases h
  · exact ⟨r, .done rfl⟩
  · dsimp only at h
    split_ifs at h with _ hmax
    · rcases rest with _ | ⟨v, rest⟩
      · cases h
      · rw [maxIdNumbers, if_pos hmax]
        dsimp only at h
        rcases hv : parseInt v with _ | n <;> rw [hv] at h
        · cases h
        · have hid : n = r.msgId := congrArg ArgResult.msgId (Except.ok.inj h)
          exact fills_id (hid ▸ hv)
    · rcases rest with _ | ⟨v, rest⟩
      · exact ⟨r, .done rfl⟩
      · rw [maxIdNumbers, if_neg hmax]
        exact ⟨r, .done rfl⟩

theorem fills_ite {c : Prop} [Decidable c] {p q : Except ArgStop ArgResult}
    {ps qs : List (IntField × Bytes)}
    (hp : p = .ok r → ∃ out, Fills out ps r) (hq : q = .ok r → ∃ out, Fills out qs r) :
    (if c then p else q) = .ok r → ∃ out, Fills out (if c then ps else qs) r := by
  split_ifs with hc
  · exact hp
  · exact hq

theorem fills_none {p : Except ArgStop ArgResult} :
    p = .ok r → ∃ out, Fills out [] r :=
  fun _ => ⟨r, .done rfl⟩

theorem fills_parseSubcommand {subcmd : Bytes} :
    parseSubcommand subcmd args out = .ok r →
      ∃ out', Fills out' (commandNumbers subcmd args) r := by
  rw [parseSubcommand, commandNumbers]
  refine fills_ite (fun h => ⟨_, fills_optionLoop quiet_dialogsOptions h⟩) ?_
  refine fills_ite fills_parseHistory ?_
  refine fills_ite fills_parseSend ?_
  refine fills_ite fills_parseSearch ?_
  refine fills_ite fills_none ?_
  refine fills_ite fills_none ?_
  refine fills_ite fills_none ?_
  refine fills_ite (fun h => ⟨_, fills_optionLoop quiet_watchOptions h⟩) ?_
  refine fills_ite fills_parseDownload ?_
  refine fills_ite fills_parseEdit ?_
  refine fills_ite fills_parseDelete ?_
  refine fills_ite fills_none ?_
  refine fills_ite fills_parseForward ?_
  exact fills_ite fills_parseRead fills_none

theorem fills_argParse {argv : List Bytes} (h : argParse argv = .ok r) :
    ∃ out, Fills out (numberArgs argv) r := by
  rw [argParse, parseWords] at h
  rw [numberArgs]
  rcases hflags : globalFlags argv.tail .initial with e | ⟨out, _ | ⟨subcmd, args⟩⟩ <;>
    rw [hflags] at h
  · cases h
  · exact ⟨r, .done rfl⟩
  · exact fills_parseSubcommand h

theorem Fills.isSome_of_mem {ps : List (IntField × Bytes)} (h : Fills out ps r)
    {p : IntField × Bytes} (hp : p ∈ ps) : ∃ n, parseInt p.2 = some n := by
  induction h with
  | done _ => exact absurd hp List.not_mem_nil
  | fill ht _ ih =>
    rcases List.mem_cons.mp hp with rfl | hp
    · exact ⟨_, ht⟩
    · exact ih hp

theorem mem_of_lastFor {f : IntField} {t : Bytes} {ps : List (IntField × Bytes)}
    (h : lastFor f ps = some t) : (f, t) ∈ ps := by
  induction ps with
  | nil => cases h
  | cons p ps ih =>
    rw [lastFor] at h
    rcases hlast : lastFor f ps with _ | t' <;> rw [hlast] at h
    · rw [none_or] at h
      split_ifs at h with hf
      rw [← hf, ← some.inj h]
      exact List.mem_cons_self
    · rw [some_or] at h
      exact List.mem_cons_of_mem _ (ih (hlast.trans h))

/-- **The integer fields are the numbers that were given exactly if each of these fits an `int`.**
-/
theorem exact_iff {argv : List Bytes} {r : ArgResult} (h : argParse argv = .ok r) :
    Exact argv r ↔ ∀ p ∈ numberArgs argv, fitsInt p.2 = true := by
  obtain ⟨out, hfills⟩ := fills_argParse h
  constructor
  · intro hexact p hp
    obtain ⟨n, hn⟩ := hfills.isSome_of_mem hp
    have heq := hexact.unreduced p hp
    rw [hn] at heq
    exact (numeral_eq_iff hn).mp heq
  · intro hfits
    refine ⟨fun f t ht => ?_, fun p hp => ?_⟩
    · exact (numeral_eq_iff ((hfills.get_eq f).1 t ht)).mpr (hfits (f, t) (mem_of_lastFor ht))
    · obtain ⟨n, hn⟩ := hfills.isSome_of_mem hp
      rw [hn]
      exact (numeral_eq_iff hn).mpr (hfits p hp)

/-- The largest message id is accepted as it is. -/
theorem exact_of_delete :
    Exact [ascii "tg-cli", ascii "delete", ascii "@a", ascii "2147483647"]
      { ArgResult.initial with
        command := .delete, peer := some (ascii "@a"), msgId := 2147483647 } :=
  (exact_iff (by decide +kernel)).mpr (by decide +kernel)

/-- A message id beyond 32 bits is taken for message 1, and that message is deleted. -/
theorem delete_other_message :
    ∃ r, argParse [ascii "tg-cli", ascii "delete", ascii "@a", ascii "4294967297"] = .ok r ∧
      r.msgId = 1 ∧
      ¬ Exact [ascii "tg-cli", ascii "delete", ascii "@a", ascii "4294967297"] r := by
  refine ⟨{ ArgResult.initial with command := .delete, peer := some (ascii "@a"), msgId := 1 },
    by decide +kernel, rfl, fun h => ?_⟩
  have hvalue := h.value .msgId (ascii "4294967297") (by decide +kernel)
  exact absurd hvalue (by decide +kernel)

end TgCli.Core

import TgCli.Core.ArgParse

/-!
# What becomes of each word of a command line

The usage of a subcommand says which options it has and which places for other words.  A command
line is accounted for if each of its words is one of these and has its effect on the result.  The
subcommands with an option loop refuse every word that they have no use for.  The others read a
fixed number of words and return, whatever comes after them: `me --json` is `me`, and of
`send @a good morning` the message is `good`.
-/

namespace TgCli.Core

open Lib

/-! ## Reading to the end -/

section ReadToEnd

variable {α β : Type*}

/-- The result of `p` on `xs` is open up to the last element: each part of `xs` that has an element
behind it can be continued so that the result is another one. -/
def ReadToEnd (p : List α → β) (xs : List α) : Prop :=
  ∀ before x after, xs = before ++ x :: after → ∃ t, p (before ++ t) ≠ p xs

theorem readToEnd_of_dropLast {p : List α → β} {xs t : List α}
    (h : p (xs.dropLast ++ t) ≠ p xs) : ReadToEnd p xs := by
  rintro before x after rfl
  refine ⟨(x :: after).dropLast ++ t, ?_⟩
  rwa [List.dropLast_append_of_ne_nil (List.cons_ne_nil x after), List.append_assoc] at h

theorem readToEnd_nil (p : List α → β) : ReadToEnd p [] := by
  intro before x after h
  exact absurd h.symm (by simp)

end ReadToEnd

/-! ## The usage of the subcommands -/

/-- What a word is for: a flag, a text that is stored, or a number that is stored. -/
inductive Use where
  | flag (set : ArgResult → ArgResult)
  | text (set : Bytes → ArgResult → ArgResult)
  | number (field : IntField)

/-- The result with the value `v` stored; a flag has no value. -/
def Use.store : Use → Bytes → ArgResult → Option ArgResult
  | flag _, _, _ => none
  | text set, v, out => some (set v out)
  | number field, v, out => (parseInt v).map fun n => out.set n field

def CliOption.use : CliOption → Use
  | flag _ set => .flag set
  | text _ _ set => .text set
  | number _ _ _ _ field => .number field

open List

def optionUses (opts : List CliOption) : List (Bytes × Use) :=
  opts.map fun o => (o.name, o.use)

def peerPlace : Use :=
  .text fun v out => { out with peer := some v }

def peer2Place : Use :=
  .text fun v out => { out with peer2 := some v }

def messagePlace : Use :=
  .text fun v out => { out with message := some v }

def queryPlace : Use :=
  .text fun v out => { out with query := some v }

def pathPlace : Use :=
  .text fun v out => { out with outPath := some v }

def msgIdPlace : Use :=
  .number .msgId

/-- The usage of a subcommand: what its name does to the result, its options, and the places for
the other words in their order. -/
structure Usage where
  start : ArgResult → ArgResult
  options : List (Bytes × Use)
  places : List Use

def globalOptions : List (Bytes × Use) :=
  [(ascii "--json", .flag fun out => { out with json := true }),
    (ascii "--quiet", .flag fun out => { out with quiet := true }),
    (ascii "--config", .text fun v out => { out with configPath := some v }),
    (ascii "--phone", .text fun v out => { out with phone := some v }),
    (ascii "--code", .text fun v out => { out with code := some v }),
    (ascii "--password", .text fun v out => { out with password := some v })]

def dialogsUsage : Usage :=
  ⟨fun out => { out with command := .dialogs, limit := 20 }, optionUses dialogsOptions, []⟩

def historyUsage : Usage :=
  ⟨fun out => { out with command := .history, limit := 50, offset := 0 },
    optionUses historyOptions, [peerPlace]⟩

def sendUsage : Usage :=
  ⟨fun out => { out with command := .send },
    [(ascii "--reply", .number .replyTo), (ascii "--stdin", .flag id)], [peerPlace, messagePlace]⟩

def searchUsage : Usage :=
  ⟨fun out => { out with command := .search, limit := 20 }, optionUses searchOptions,
    [peerPlace, queryPlace]⟩

def contactsUsage : Usage :=
  ⟨fun out => { out with command := .contacts }, [], []⟩

def userInfoUsage : Usage :=
  ⟨fun out => { out with command := .userInfo }, [], [peerPlace]⟩

def meUsage : Usage :=
  ⟨fun out => { out with command := .me }, [], []⟩

def watchUsage : Usage :=
  ⟨fun out => { out with command := .watch, watchInterval := 30 }, optionUses watchOptions, []⟩

def downloadUsage : Usage :=
  ⟨fun out => { out with command := .download }, optionUses downloadOptions,
    [peerPlace, msgIdPlace]⟩

def editUsage : Usage :=
  ⟨fun out => { out with command := .edit }, [], [peerPlace, msgIdPlace, messagePlace]⟩

def deleteUsage : Usage :=
  ⟨fun out => { out with command := .delete }, optionUses deleteOptions, [peerPlace, msgIdPlace]⟩

def sendFileUsage : Usage :=
  ⟨fun out => { out with command := .sendFile }, optionUses sendFileOptions,
    [peerPlace, pathPlace]⟩

def forwardUsage : Usage :=
  ⟨fun out => { out with command := .forward }, [], [peerPlace, peer2Place, msgIdPlace]⟩

def readUsage : Usage :=
  ⟨fun out => { out with command := .read }, [(ascii "--max-id", .number .msgId)], [peerPlace]⟩

def loginUsage : Usage :=
  ⟨fun out => { out with command := .login }, optionUses loginOptions, []⟩

def usageOf (subcmd : Bytes) : Option Usage :=
  if subcmd = ascii "dialogs" then some dialogsUsage
  else if subcmd = ascii "history" then some historyUsage
  else if subcmd = ascii "send" then some sendUsage
  else if subcmd = ascii "search" then some searchUsage
  else if subcmd = ascii "contacts" then some contactsUsage
  else if subcmd = ascii "user-info" then some userInfoUsage
  else if subcmd = ascii "me" ∨ subcmd = ascii "self" then some meUsage
  else if subcmd = ascii "watch" then some watchUsage
  else if subcmd = ascii "download" then some downloadUsage
  else if subcmd = ascii "edit" then some editUsage
  else if subcmd = ascii "delete" then some deleteUsage
  else if subcmd = ascii "send-file" ∨ subcmd = ascii "upload" then some sendFileUsage
  else if subcmd = ascii "forward" then some forwardUsage
  else if subcmd = ascii "read" then some readUsage
  else if subcmd = ascii "login" then some loginUsage
  else none

/-- `r` comes from `out` by the words, each of which is a flag, an option or its value, or is stored
in the next of the places; a place may also stay empty. -/
inductive Accounts (options : List (Bytes × Use)) :
    List Use → ArgResult → List Bytes → ArgResult → Prop
  | done {places : List Use} {out : ArgResult} : Accounts options places out [] out
  | flag {places : List Use} {out r : ArgResult} {a : Bytes} {rest : List Bytes}
      {set : ArgResult → ArgResult} :
      (a, Use.flag set) ∈ options → Accounts options places (set out) rest r →
        Accounts options places out (a :: rest) r
  | value {places : List Use} {out out' r : ArgResult} {a v : Bytes} {rest : List Bytes}
      {use : Use} :
      (a, use) ∈ options → use.store v out = some out' → Accounts options places out' rest r →
        Accounts options places out (a :: v :: rest) r
  | positional {places : List Use} {out out' r : ArgResult} {v : Bytes} {rest : List Bytes}
      {use : Use} :
      use.store v out = some out' → Accounts options places out' rest r →
        Accounts options (use :: places) out (v :: rest) r
  | skip {places : List Use} {out r : ArgResult} {words : List Bytes} {use : Use} :
      Accounts options places out words r → Accounts options (use :: places) out words r

/-- The words behind the name of the program are the global options, then a subcommand, and what
its usage has a place for. -/
inductive Meant : List Bytes → ArgResult → Prop
  | bare {words : List Bytes} {r : ArgResult} :
      Accounts globalOptions [] .initial words r → Meant words r
  | command {flags args : List Bytes} {subcmd : Bytes} {u : Usage} {out r : ArgResult} :
      Accounts globalOptions [] .initial flags out → usageOf subcmd = some u →
        Accounts u.options u.places (u.start out) args r → Meant (flags ++ subcmd :: args) r

/-- Every word behind the name of the program was read, and each has its part in the result. -/
structure Accounted (argv : List Bytes) (r : ArgResult) : Prop where
  read : ReadToEnd (fun words => argParse (argv.take 1 ++ words)) argv.tail
  meant : Meant argv.tail r

/-! ## The words that are too many -/

def behindGlobals : List Bytes → List Bytes
  | [] => []
  | a :: rest =>
    if a = ascii "--json" ∨ a = ascii "--quiet" then behindGlobals rest
    else if a = ascii "--config" ∨ a = ascii "--phone" ∨ a = ascii "--code" ∨
        a = ascii "--password" then
      match rest with
      | [] => []
      | _ :: rest => behindGlobals rest
    else a :: rest

def behindSendOptions : List Bytes → List Bytes
  | [] => []
  | a :: rest =>
    if a = ascii "--reply" then
      match rest with
      | [] => []
      | _ :: rest => behindSendOptions rest
    else if a = ascii "--stdin" then behindSendOptions rest
    else a :: rest

/-- The arguments of a subcommand that are more than its usage has a place for. -/
def spareArgs (subcmd : Bytes) (args : List Bytes) : List Bytes :=
  if subcmd = ascii "dialogs" then []
  else if subcmd = ascii "history" then []
  else if subcmd = ascii "send" then (behindSendOptions args.tail).drop 1
  else if subcmd = ascii "search" then []
  else if subcmd = ascii "contacts" then args
  else if subcmd = ascii "user-info" then args.drop 1
  else if subcmd = ascii "me" ∨ subcmd = ascii "self" then args
  else if subcmd = ascii "watch" then []
  else if subcmd = ascii "download" then []
  else if subcmd = ascii "edit" then args.drop 3
  else if subcmd = ascii "delete" then []
  else if subcmd = ascii "send-file" ∨ subcmd = ascii "upload" then []
  else if subcmd = ascii "forward" then args.drop 3
  else if subcmd = ascii "read" then
    if args[1]? = some (ascii "--max-id") then args.drop 3 else args.drop 1
  else []

/-- The words of a command line that are too many for its subcommand. -/
def spareWords (argv : List Bytes) : List Bytes :=
  match behindGlobals argv.tail with
  | [] => []
  | subcmd :: args => spareArgs subcmd args

/-! ## The option loops -/

variable {a subcmd : Bytes} {command : String} {opts : List CliOption} {r out out' : ArgResult}
  {w args argv rest flags words : List Bytes} {p q parse : List Bytes → Except ArgStop ArgResult}

theorem mem_optionUses {o : CliOption}
    (h : (opts.find? fun o => o.name = a) = some o) : (a, o.use) ∈ optionUses opts := by
  have hname : o.name = a := by simpa using find?_some h
  rw [optionUses, mem_map]
  exact ⟨o, mem_of_find?_eq_some h, by rw [hname]⟩

theorem accounts_optionLoop (h : optionLoop command opts args out = .ok r) :
    Accounts (optionUses opts) [] out args r := by
  fun_induction optionLoop command opts args out with
  | case1 out =>
    cases h
    exact .done
  | case2 => cases h
  | case3 a rest out name set ho ih => exact .flag (mem_optionUses ho) (ih h)
  | case4 => cases h
  | case5 a out name missing set ho v rest ih => exact .value (mem_optionUses ho) rfl (ih h)
  | case6 => cases h
  | case7 => cases h
  | case8 => cases h
  | case9 a out name missing notNumber range field ho v rest n hn _ ih =>
    refine .value (mem_optionUses ho) ?_ (ih h)
    simp only [CliOption.use, Use.store, hn, Option.map_some]

/-- Some continuation of what is in front of the last word is refused. -/
def Refuses (p : List Bytes → Except ArgStop ArgResult) (args : List Bytes) : Prop :=
  ∃ t e, p (args.dropLast ++ t) = .error e

/-- A parser that reads `w` and goes on as another one. -/
theorem Refuses.append (hw : Refuses p w) (hp : ∀ t, p (w ++ t) = q t)
    (h : rest ≠ [] → Refuses q rest) : Refuses p (w ++ rest) := by
  by_cases hrest : rest = []
  · rwa [hrest, append_nil]
  · obtain ⟨t, e, he⟩ := h hrest
    refine ⟨t, e, ?_⟩
    rw [dropLast_append_of_ne_nil hrest, append_assoc, hp, he]

section OptionLoop

variable {command : String} {opts : List CliOption} {a v : Bytes} {out : ArgResult}

theorem optionLoop_flag {name : String} {set : ArgResult → ArgResult}
    (ho : (opts.find? fun o => o.name = a) = some (.flag name set)) (rest : List Bytes) :
    optionLoop command opts (a :: rest) out = optionLoop command opts rest (set out) := by
  rw [optionLoop.eq_def]
  simp only [ho]

theorem optionLoop_text {name missing : String} {set : Bytes → ArgResult → ArgResult}
    (ho : (opts.find? fun o => o.name = a) = some (.text name missing set)) (rest : List Bytes) :
    optionLoop command opts (a :: v :: rest) out = optionLoop command opts rest (set v out) := by
  rw [optionLoop.eq_def]
  simp only [ho]

theorem optionLoop_number {name missing notNumber : String}
    {range : Option (Int32 × Int32 × String × String)} {field : IntField} {n : Int32}
    (ho : (opts.find? fun o => o.name = a) = some (.number name missing notNumber range field))
    (hn : parseInt v = some n) (hrange : outOfRange n range = none) (rest : List Bytes) :
    optionLoop command opts (a :: v :: rest) out =
      optionLoop command opts rest (out.set n field) := by
  rw [optionLoop.eq_def]
  simp only [ho, hn, hrange]

theorem optionLoop_dash (hdash : ∀ o ∈ opts, o.name ≠ ascii "-") (rest : List Bytes) :
    ∃ e, optionLoop command opts (ascii "-" :: rest) out = .error e := by
  have hfind : (opts.find? fun o => o.name = ascii "-") = none := by
    rw [find?_eq_none]
    intro o ho hname
    exact hdash o ho (of_decide_eq_true hname)
  rw [optionLoop.eq_def]
  simp only [hfind]
  exact ⟨_, rfl⟩

end OptionLoop

theorem refuses_optionLoop (hdash : ∀ o ∈ opts, o.name ≠ ascii "-")
    (h : optionLoop command opts args out = .ok r) (hargs : args ≠ []) :
    Refuses (fun args => optionLoop command opts args out) args := by
  fun_induction optionLoop command opts args out with
  | case1 out => exact absurd rfl hargs
  | case2 => cases h
  | case3 a rest out name set ho ih =>
    exact .append (w := [a]) ⟨[ascii "-"], optionLoop_dash hdash []⟩ (optionLoop_flag ho) (ih h)
  | case4 => cases h
  | case5 a out name missing set ho v rest ih =>
    refine .append (w := [a, v]) ⟨[], .error (ascii missing), ?_⟩ (optionLoop_text ho) (ih h)
    simp only [dropLast, append_nil, optionLoop, ho]
  | case6 => cases h
  | case7 => cases h
  | case8 => cases h
  | case9 a out name missing notNumber range field ho v rest n hn hrange ih =>
    refine .append (w := [a, v]) ⟨[], .error (ascii missing), ?_⟩
      (optionLoop_number ho hn hrange) (ih h)
    simp only [dropLast, append_nil, optionLoop, ho]

/-! ## One subcommand at a time -/

/-- What is to be shown of a subcommand: without spare words its usage accounts for the arguments
and the last of them is read; with spare words the result is settled before the last word, or the
usage does not account for the arguments. -/
structure FollowsUsage (usage : Option Usage) (spare : List Bytes)
    (parse : List Bytes → Except ArgStop ArgResult) (args : List Bytes) (out r : ArgResult) :
    Prop where
  accounts : spare = [] →
    ∃ u, usage = some u ∧ Accounts u.options u.places (u.start out) args r
  refuses : spare = [] → args ≠ [] → Refuses parse args
  dropped : spare ≠ [] →
    (∃ before x after, args = before ++ x :: after ∧ ∀ t, parse (before ++ t) = .ok r) ∨
      ∀ u out', usage = some u → ¬ Accounts u.options u.places out' args r

variable {args : List Bytes} {out r : ArgResult}

theorem followsUsage_of_loop {u : Usage}
    (haccounts : Accounts u.options u.places (u.start out) args r)
    (hrefuses : args ≠ [] → Refuses parse args) : FollowsUsage (some u) [] parse args out r :=
  ⟨fun _ => ⟨u, rfl, haccounts⟩, fun _ => hrefuses, fun h => absurd rfl h⟩

theorem followsUsage_of_spare {u : Usage} {spare : List Bytes} (hargs : args = w ++ spare)
    (haccounts : Accounts u.options u.places (u.start out) w r)
    (hrefuses : w ≠ [] → Refuses parse w) (hparse : spare ≠ [] → ∀ t, parse (w ++ t) = .ok r) :
    FollowsUsage (some u) spare parse args out r := by
  subst hargs
  rcases spare with _ | ⟨x, after⟩
  · rw [append_nil]
    exact followsUsage_of_loop haccounts hrefuses
  · exact ⟨fun h => absurd h (cons_ne_nil x after),
      fun h => absurd h (cons_ne_nil x after), fun h => .inl ⟨w, x, after, rfl, hparse h⟩⟩

theorem followsUsage_ite {c : Prop} [Decidable c] {u v : Option Usage} {s s' : List Bytes}
    (h : (if c then p args else q args) = .ok r)
    (hp : p args = .ok r → FollowsUsage u s p args out r)
    (hq : q args = .ok r → FollowsUsage v s' q args out r) :
    FollowsUsage (if c then u else v) (if c then s else s')
      (fun args => if c then p args else q args) args out r := by
  split_ifs at h ⊢ with hc
  · exact hp h
  · exact hq h

theorem followsUsage_optionLoop
    {start : ArgResult → ArgResult} (hdash : ∀ o ∈ opts, o.name ≠ ascii "-")
    (h : optionLoop command opts args (start out) = .ok r) :
    FollowsUsage (some ⟨start, optionUses opts, []⟩) []
      (fun args => optionLoop command opts args (start out)) args out r :=
  followsUsage_of_loop (accounts_optionLoop h) fun hargs => refuses_optionLoop hdash h hargs

theorem refuses_places (hdash : ∀ o ∈ opts, o.name ≠ ascii "-")
    (hparse : ∀ t, parse (w ++ t) = optionLoop command opts t out) (hw : Refuses parse w)
    (h : optionLoop command opts rest out = .ok r) : Refuses parse (w ++ rest) :=
  hw.append hparse (refuses_optionLoop hdash h)

theorem followsUsage_parseHistory (h : parseHistory args out = .ok r) :
    FollowsUsage (some historyUsage) [] (fun args => parseHistory args out) args out r := by
  rcases args with _ | ⟨peer, rest⟩
  · cases h
  · rw [parseHistory] at h
    split_ifs at h with hpeer
    refine followsUsage_of_loop (.positional rfl (accounts_optionLoop h)) fun _ => ?_
    refine refuses_places (w := [peer]) (by decide) (fun t => ?_) ⟨[], _, rfl⟩ h
    rw [singleton_append, parseHistory, if_neg hpeer]

theorem followsUsage_parseSearch (h : parseSearch args out = .ok r) :
    FollowsUsage (some searchUsage) [] (fun args => parseSearch args out) args out r := by
  have hdash : ∀ o ∈ searchOptions, o.name ≠ ascii "-" := by decide
  rcases args with _ | ⟨a, _ | ⟨b, rest⟩⟩
  · cases h
  · rw [parseSearch] at h
    split_ifs at h with ha
    exact followsUsage_of_loop (.skip (.positional rfl (accounts_optionLoop h)))
      fun _ => ⟨[], _, rfl⟩
  · -- a dash in the place of the second word is taken for an option
    have hopen : isDash a = false → Refuses (fun args => parseSearch args out) [a, b] := by
      intro ha
      obtain ⟨e, he⟩ : ∃ e, optionLoop "tg-cli search" searchOptions [ascii "-"]
          { out with command := .search, limit := 20, query := some a } = .error e :=
        optionLoop_dash hdash []
      refine ⟨[ascii "-"], e, ?_⟩
      show parseSearch [a, ascii "-"] out = .error e
      rw [parseSearch, ha]
      exact he
    rw [parseSearch] at h
    split_ifs at h with ha hb
    · refine followsUsage_of_loop (.skip (.positional rfl (accounts_optionLoop h))) fun _ => ?_
      by_cases hrest : rest = []
      · subst hrest
        exact hopen (Bool.eq_false_of_not_eq_true ha)
      · obtain ⟨t, e, he⟩ := refuses_optionLoop hdash h (cons_ne_nil b rest)
        refine ⟨t, e, ?_⟩
        rw [dropLast_cons_of_ne_nil hrest, cons_append] at he
        show parseSearch ((a :: b :: rest).dropLast ++ t) out = .error e
        rw [dropLast_cons_of_ne_nil (cons_ne_nil b rest),
          dropLast_cons_of_ne_nil hrest, cons_append, cons_append, parseSearch,
          if_neg ha, if_pos hb]
        exact he
    · refine followsUsage_of_loop
        (.positional rfl (.positional rfl (accounts_optionLoop h))) fun _ => ?_
      refine refuses_places (w := [a, b]) hdash (fun t => ?_)
        (hopen (Bool.eq_false_of_not_eq_true ha)) h
      rw [cons_append, singleton_append, parseSearch, if_neg ha, if_neg hb]

theorem store_msgId {msg : String} {v : Bytes} {n : Int32} (h : positiveId msg v = .ok n)
    (out : ArgResult) : msgIdPlace.store v out = some { out with msgId := n } := by
  rw [msgIdPlace, Use.store, positiveId_eq h]
  rfl

theorem followsUsage_parseDownload (h : parseDownload args out = .ok r) :
    FollowsUsage (some downloadUsage) [] (fun args => parseDownload args out) args out r := by
  rcases args with _ | ⟨peer, _ | ⟨v, rest⟩⟩
  · cases h
  · rw [parseDownload] at h
    split_ifs at h
  · rw [parseDownload] at h
    split_ifs at h with hpeer hv
    obtain ⟨n, hid, h⟩ := exists_positiveId h
    refine followsUsage_of_loop
      (.positional rfl (.positional (store_msgId hid _) (accounts_optionLoop h))) fun _ => ?_
    refine refuses_places (w := [peer, v]) (by decide) (fun t => ?_) ⟨[], ?_⟩ h
    · rw [cons_append, singleton_append, parseDownload, if_neg hpeer, if_neg hv, hid]
    · refine ⟨.error (ascii "tg-cli download: <msg_id> argument required\n"), ?_⟩
      show parseDownload [peer] out = _
      rw [parseDownload, if_neg hpeer]

theorem followsUsage_parseDelete (h : parseDelete args out = .ok r) :
    FollowsUsage (some deleteUsage) [] (fun args => parseDelete args out) args out r := by
  rcases args with _ | ⟨peer, _ | ⟨v, rest⟩⟩
  · cases h
  · rw [parseDelete] at h
    split_ifs at h
  · rw [parseDelete] at h
    split_ifs at h with hpeer
    obtain ⟨n, hid, h⟩ := exists_positiveId h
    refine followsUsage_of_loop
      (.positional rfl (.positional (store_msgId hid _) (accounts_optionLoop h))) fun _ => ?_
    refine refuses_places (w := [peer, v]) (by decide) (fun t => ?_) ⟨[], ?_⟩ h
    · rw [cons_append, singleton_append, parseDelete, if_neg hpeer, hid]
    · refine ⟨.error (ascii "tg-cli delete: positive <msg_id> required\n"), ?_⟩
      show parseDelete [peer] out = _
      rw [parseDelete, if_neg hpeer]

theorem followsUsage_parseSendFile (h : parseSendFile args out = .ok r) :
    FollowsUsage (some sendFileUsage) [] (fun args => parseSendFile args out) args out r := by
  rcases args with _ | ⟨peer, _ | ⟨path, rest⟩⟩
  · cases h
  · cases h
  · rw [parseSendFile] at h
    refine followsUsage_of_loop
      (.positional rfl (.positional rfl (accounts_optionLoop h))) fun _ => ?_
    exact refuses_places (w := [peer, path]) (by decide) (fun t => rfl) ⟨[], _, rfl⟩ h

theorem followsUsage_parseUserInfo (h : parseUserInfo args out = .ok r) :
    FollowsUsage (some userInfoUsage) (args.drop 1)
      (fun args => parseUserInfo args out) args out r := by
  rcases args with _ | ⟨peer, rest⟩
  · cases h
  · cases h
    exact followsUsage_of_spare (w := [peer]) rfl (.positional rfl .done) (fun _ => ⟨[], _, rfl⟩)
      fun _ t => rfl

theorem followsUsage_parseEdit (h : parseEdit args out = .ok r) :
    FollowsUsage (some editUsage) (args.drop 3) (fun args => parseEdit args out)
      args out r := by
  rcases args with _ | ⟨peer, _ | ⟨v, rest⟩⟩
  · cases h
  · rw [parseEdit] at h
    split_ifs at h
  · rw [parseEdit] at h
    split_ifs at h with hpeer
    obtain ⟨n, hid, h⟩ := exists_positiveId h
    rcases rest with _ | ⟨text, rest⟩
    · cases h
    · cases h
      refine followsUsage_of_spare (w := [peer, v, text]) rfl
        (.positional rfl (.positional (store_msgId hid _) (.positional rfl .done)))
        (fun _ => ⟨[], .error (ascii "tg-cli edit: <new-text> required\n"), ?_⟩) fun _ t => ?_
      · show parseEdit [peer, v] out = _
        rw [parseEdit, if_neg hpeer, hid]
      · show parseEdit (peer :: v :: text :: t) out = _
        rw [parseEdit, if_neg hpeer, hid]

theorem followsUsage_parseForward (h : parseForward args out = .ok r) :
    FollowsUsage (some forwardUsage) (args.drop 3) (fun args => parseForward args out)
      args out r := by
  rcases args with _ | ⟨peer, _ | ⟨peer2, _ | ⟨v, rest⟩⟩⟩
  · cases h
  · cases h
  · cases h
  · rw [parseForward] at h
    obtain ⟨n, hid, h⟩ := exists_positiveId h
    cases h
    refine followsUsage_of_spare (w := [peer, peer2, v]) rfl
      (.positional rfl (.positional rfl (.positional (store_msgId hid _) .done)))
      (fun _ => ⟨[], _, rfl⟩) fun _ t => ?_
    show parseForward (peer :: peer2 :: v :: t) out = _
    rw [parseForward, hid]

theorem not_accounts_readUsage {peer : Bytes} (hpeer : ¬ isDash peer = true)
    (ha : a ≠ ascii "--max-id") :
    ¬ Accounts readUsage.options readUsage.places out [peer, a] r := by
  have hname : ∀ {b : Bytes} {use : Use}, (b, use) ∈ readUsage.options →
      b = ascii "--max-id" ∧ use = .number .msgId := by
    intro b use hmem
    rw [readUsage, mem_singleton, Prod.mk.injEq] at hmem
    exact hmem
  have hnot : peer ≠ ascii "--max-id" := by
    rintro rfl
    exact hpeer rfl
  intro h
  rcases h with _ | ⟨hmem, _⟩ | ⟨hmem, _, _⟩ | ⟨_, h⟩ | h
  · exact hnot (hname hmem).1
  · exact hnot (hname hmem).1
  · rcases h with _ | ⟨hmem, _⟩
    exact ha (hname hmem).1
  · rcases h with _ | ⟨hmem, _⟩ | ⟨hmem, _, _⟩
    · exact hnot (hname hmem).1
    · exact hnot (hname hmem).1

theorem followsUsage_parseRead (h : parseRead args out = .ok r) :
    FollowsUsage (some readUsage)
      (if args[1]? = some (ascii "--max-id") then args.drop 3 else args.drop 1)
      (fun args => parseRead args out) args out r := by
  rcases args with _ | ⟨peer, args⟩
  · cases h
  · rw [parseRead] at h
    split_ifs at h with hpeer
    rcases args with _ | ⟨a, rest⟩
    · cases h
      exact followsUsage_of_spare (w := [peer]) rfl (.positional rfl .done) (fun _ => ⟨[], _, rfl⟩)
        fun h => absurd rfl h
    · have hsecond : (peer :: a :: rest)[1]? = some (ascii "--max-id") ↔ a = ascii "--max-id" := by
        simp
      rw [if_congr hsecond rfl rfl]
      dsimp only at h
      split_ifs at h ⊢ with ha
      · subst ha
        rcases rest with _ | ⟨v, rest⟩
        · cases h
        · dsimp only at h
          rcases hv : parseInt v with _ | n <;> rw [hv] at h
          · cases h
          · cases h
            have hstore : (Use.number .msgId).store v
                { out with command := .read, peer := some peer } =
                some { out with command := .read, peer := some peer, msgId := n } := by
              rw [Use.store, hv]
              rfl
            refine followsUsage_of_spare (w := [peer, ascii "--max-id", v]) rfl
              (.positional rfl (.value mem_cons_self hstore .done)) (fun _ => ?_) fun _ t => ?_
            · refine ⟨[], .error (ascii "tg-cli read: --max-id needs a number\n"), ?_⟩
              show parseRead [peer, ascii "--max-id"] out = _
              rw [parseRead, if_neg hpeer]
              rfl
            · show parseRead (peer :: ascii "--max-id" :: v :: t) out = _
              rw [parseRead, if_neg hpeer]
              simp only [if_true, hv]
      · cases h
        refine ⟨fun h => absurd h (cons_ne_nil a rest),
          fun h => absurd h (cons_ne_nil a rest), fun _ => ?_⟩
        rcases rest with _ | ⟨b, rest⟩
        · refine .inr fun u out' hu => ?_
          cases hu
          exact not_accounts_readUsage hpeer ha
        · refine .inl ⟨[peer, a], b, rest, rfl, fun t => ?_⟩
          show parseRead (peer :: a :: t) out = _
          rw [parseRead, if_neg hpeer]
          simp only [if_neg ha]

theorem exists_kept_sendLoop (h : sendLoop args out = .ok r) :
    ∃ kept, args = kept ++ (behindSendOptions args).drop 1 ∧
      Accounts sendUsage.options [messagePlace] out kept r ∧
      (kept ≠ [] → Refuses (fun args => sendLoop args out) kept) ∧
      ((behindSendOptions args).drop 1 ≠ [] → ∀ t, sendLoop (kept ++ t) out = .ok r) := by
  fun_induction sendLoop args out with
  | case1 out =>
    cases h
    exact ⟨[], rfl, .done, fun h => absurd rfl h, fun h => absurd rfl h⟩
  | case2 => cases h
  | case3 => cases h
  | case4 => cases h
  | case5 out v rest n hn hpos hdash ih =>
    have hstep : ∀ t, sendLoop ([ascii "--reply", v] ++ t) out =
        sendLoop t (out.set n .replyTo) := by
      intro t
      simp only [cons_append, nil_append, sendLoop, hdash, if_true, hn, hpos, if_false]
    have hstore : (Use.number .replyTo).store v out = some (out.set n .replyTo) := by
      rw [Use.store, hn, Option.map_some]
    rw [behindSendOptions, if_pos rfl]
    obtain ⟨kept, hrest, haccounts, hrefuses, hsettled⟩ := ih h
    exact ⟨ascii "--reply" :: v :: kept, congrArg (ascii "--reply" :: v :: ·) hrest,
      .value mem_cons_self hstore haccounts,
      fun _ => .append (w := [ascii "--reply", v]) ⟨[], _, rfl⟩ hstep hrefuses,
      fun hspare t => (hstep (kept ++ t)).trans (hsettled hspare t)⟩
  | case6 rest out hdash hreply ih =>
    have hstep : ∀ t, sendLoop ([ascii "--stdin"] ++ t) out = sendLoop t out := by
      intro t
      rw [singleton_append, sendLoop.eq_def]
      simp only [hdash, if_true, hreply, if_false]
    rw [behindSendOptions.eq_def]
    obtain ⟨kept, hrest, haccounts, hrefuses, hsettled⟩ := ih h
    exact ⟨ascii "--stdin" :: kept, congrArg (ascii "--stdin" :: ·) hrest,
      .flag (mem_cons_of_mem _ mem_cons_self) haccounts,
      fun _ => .append (w := [ascii "--stdin"]) ⟨[ascii "-"], _, rfl⟩ hstep hrefuses,
      fun hspare t => (hstep (kept ++ t)).trans (hsettled hspare t)⟩
  | case7 => cases h
  | case8 a rest out hdash =>
    have hreply : a ≠ ascii "--reply" := by
      rintro rfl
      exact hdash rfl
    have hstdin : a ≠ ascii "--stdin" := by
      rintro rfl
      exact hdash rfl
    rw [behindSendOptions.eq_def]
    simp only [hreply, hstdin, if_false]
    cases h
    refine ⟨[a], rfl, .positional rfl .done, fun _ => ⟨[ascii "-"], _, rfl⟩, fun _ t => ?_⟩
    rw [singleton_append, sendLoop.eq_def]
    simp only [hdash, Bool.false_eq_true, if_false]

theorem followsUsage_parseSend (h : parseSend args out = .ok r) :
    FollowsUsage (some sendUsage) ((behindSendOptions args.tail).drop 1)
      (fun args => parseSend args out) args out r := by
  rcases args with _ | ⟨peer, rest⟩
  · cases h
  · rw [parseSend] at h
    split_ifs at h with hpeer
    have hstep : ∀ t, parseSend ([peer] ++ t) out =
        sendLoop t { out with command := .send, peer := some peer } := by
      intro t
      rw [singleton_append, parseSend, if_neg hpeer]
    obtain ⟨kept, hrest, haccounts, hrefuses, hsettled⟩ := exists_kept_sendLoop h
    exact followsUsage_of_spare (w := peer :: kept) (congrArg (peer :: ·) hrest)
      (.positional rfl haccounts) (fun _ => .append (w := [peer]) ⟨[], _, rfl⟩ hstep hrefuses)
      fun hspare t => (hstep (kept ++ t)).trans (hsettled hspare t)

theorem followsUsage_parseContacts (h : parseContacts out = .ok r) :
    FollowsUsage (some contactsUsage) args (fun _ => parseContacts out) args out r := by
  cases h
  exact followsUsage_of_spare (w := []) rfl .done (fun h => absurd rfl h) fun _ _ => rfl

theorem followsUsage_parseMe (h : parseMe out = .ok r) :
    FollowsUsage (some meUsage) args (fun _ => parseMe out) args out r := by
  cases h
  exact followsUsage_of_spare (w := []) rfl .done (fun h => absurd rfl h) fun _ _ => rfl

theorem followsUsage_parseDialogs (h : parseDialogs args out = .ok r) :
    FollowsUsage (some dialogsUsage) [] (fun args => parseDialogs args out) args out r :=
  followsUsage_optionLoop (by decide) h

theorem followsUsage_parseWatch (h : parseWatch args out = .ok r) :
    FollowsUsage (some watchUsage) [] (fun args => parseWatch args out) args out r :=
  followsUsage_optionLoop (by decide) h

theorem followsUsage_parseLogin (h : parseLogin args out = .ok r) :
    FollowsUsage (some loginUsage) []
      (fun args => parseLogin args out) args out r :=
  followsUsage_optionLoop (by decide) h

theorem followsUsage_parseSubcommand (h : parseSubcommand subcmd args out = .ok r) :
    FollowsUsage (usageOf subcmd) (spareArgs subcmd args)
      (fun args => parseSubcommand subcmd args out) args out r := by
  refine followsUsage_ite h followsUsage_parseDialogs fun h => ?_
  refine followsUsage_ite h followsUsage_parseHistory fun h => ?_
  refine followsUsage_ite h followsUsage_parseSend fun h => ?_
  refine followsUsage_ite h followsUsage_parseSearch fun h => ?_
  refine followsUsage_ite h followsUsage_parseContacts fun h => ?_
  refine followsUsage_ite h followsUsage_parseUserInfo fun h => ?_
  refine followsUsage_ite h followsUsage_parseMe fun h => ?_
  refine followsUsage_ite h followsUsage_parseWatch fun h => ?_
  refine followsUsage_ite h followsUsage_parseDownload fun h => ?_
  refine followsUsage_ite h followsUsage_parseEdit fun h => ?_
  refine followsUsage_ite h followsUsage_parseDelete fun h => ?_
  refine followsUsage_ite h followsUsage_parseSendFile fun h => ?_
  refine followsUsage_ite h followsUsage_parseForward fun h => ?_
  refine followsUsage_ite h followsUsage_parseRead fun h => ?_
  split_ifs at h ⊢
  exact followsUsage_parseLogin h

/-! ## The whole command line -/

theorem argParse_take (h : argv.tail ≠ []) (words : List Bytes) :
    argParse (argv.take 1 ++ words) = parseWords words .initial := by
  rcases argv with _ | ⟨program, argv⟩
  · exact absurd rfl h
  · rfl

theorem globalFlags_flag {set : ArgResult → ArgResult}
    (h : (a, Use.flag set) ∈ globalOptions) (t : List Bytes) (out : ArgResult) :
    globalFlags (a :: t) out = globalFlags t (set out) := by
  simp only [globalOptions, mem_cons, not_mem_nil, Prod.mk.injEq, Use.flag.injEq,
    reduceCtorEq, and_false, or_false] at h
  rcases h with ⟨rfl, rfl⟩ | ⟨rfl, rfl⟩ <;> cases t <;> rfl

/-- A global option with a value takes the next word, and there has to be one. -/
theorem globalFlags_value {set : Bytes → ArgResult → ArgResult}
    (h : (a, Use.text set) ∈ globalOptions) (out : ArgResult) :
    (∀ v t, globalFlags (a :: v :: t) out = globalFlags t (set v out)) ∧
      ∃ e, globalFlags [a] out = .error e := by
  simp only [globalOptions, mem_cons, not_mem_nil, Prod.mk.injEq, Use.text.injEq,
    reduceCtorEq, and_false, or_false, false_or] at h
  rcases h with ⟨rfl, rfl⟩ | ⟨rfl, rfl⟩ | ⟨rfl, rfl⟩ | ⟨rfl, rfl⟩ <;>
    exact ⟨fun _ _ => rfl, _, rfl⟩

theorem behindGlobals_append (rest : List Bytes) (h : Accounts globalOptions [] out flags out') :
    behindGlobals (flags ++ rest) = behindGlobals rest := by
  generalize hplaces : ([] : List Use) = places at h
  induction h with
  | done => rfl
  | @flag places out r a words set hmem _ ih =>
    rw [cons_append, behindGlobals.eq_def]
    simp only [globalOptions, mem_cons, not_mem_nil, Prod.mk.injEq, Use.flag.injEq,
      reduceCtorEq, and_false, or_false] at hmem
    have hname : a = ascii "--json" ∨ a = ascii "--quiet" := hmem.imp And.left And.left
    simp only [hname, if_true]
    exact ih hplaces
  | @value places out out' r a v words use hmem hstore _ ih =>
    rw [cons_append, cons_append, behindGlobals.eq_def]
    simp only [globalOptions, mem_cons, not_mem_nil, Prod.mk.injEq, or_false] at hmem
    rcases hmem with ⟨_, rfl⟩ | ⟨_, rfl⟩ | ⟨rfl, _⟩ | ⟨rfl, _⟩ | ⟨rfl, _⟩ | ⟨rfl, _⟩
    · cases hstore
    · cases hstore
    all_goals exact ih hplaces
  | positional _ _ _ => cases hplaces
  | skip _ _ => cases hplaces

/-- A word that is no global option, so that it is taken for the subcommand. -/
structure Stops (a : Bytes) : Prop where
  globalFlags_eq : ∀ t out, globalFlags (a :: t) out = .ok (out, a :: t)
  behindGlobals_eq : ∀ t, behindGlobals (a :: t) = a :: t

theorem stops_of_not_dash (h : (!isDash a) = true) : Stops a := by
  refine ⟨fun t out => ?_, fun t => ?_⟩
  · cases t <;> exact if_pos h
  · rw [behindGlobals.eq_def]
    dsimp only
    split_ifs with hflag hvalue
    · rcases hflag with rfl | rfl <;> exact absurd h (by decide)
    · rcases hvalue with rfl | rfl | rfl | rfl <;> exact absurd h (by decide)
    · rfl

theorem globalFlags_word (a : Bytes) :
    (∃ set, (a, Use.flag set) ∈ globalOptions) ∨ (∃ set, (a, Use.text set) ∈ globalOptions) ∨
      (∀ t out, ∃ e, globalFlags (a :: t) out = .error e) ∨ Stops a := by
  by_cases hdash : (!isDash a) = true
  · exact .inr (.inr (.inr (stops_of_not_dash hdash)))
  by_cases hflag : a = ascii "--json" ∨ a = ascii "--quiet"
  · rcases hflag with rfl | rfl
    · exact .inl ⟨_, mem_of_getElem? (i := 0) rfl⟩
    · exact .inl ⟨_, mem_of_getElem? (i := 1) rfl⟩
  by_cases hvalue : a = ascii "--config" ∨ a = ascii "--phone" ∨ a = ascii "--code" ∨
      a = ascii "--password"
  · rcases hvalue with rfl | rfl | rfl | rfl
    · exact .inr (.inl ⟨_, mem_of_getElem? (i := 2) rfl⟩)
    · exact .inr (.inl ⟨_, mem_of_getElem? (i := 3) rfl⟩)
    · exact .inr (.inl ⟨_, mem_of_getElem? (i := 4) rfl⟩)
    · exact .inr (.inl ⟨_, mem_of_getElem? (i := 5) rfl⟩)
  by_cases hhelp : a = ascii "--help" ∨ a = ascii "-h"
  · refine .inr (.inr (.inl fun t out => ?_))
    rcases hhelp with rfl | rfl <;> cases t <;> exact ⟨_, rfl⟩
  by_cases hversion : a = ascii "--version" ∨ a = ascii "-v"
  · refine .inr (.inr (.inl fun t out => ?_))
    rcases hversion with rfl | rfl <;> cases t <;> exact ⟨_, rfl⟩
  refine .inr (.inr (.inr ⟨fun t out => ?_, fun t => ?_⟩))
  · obtain ⟨hjson, hquiet⟩ := not_or.mp hflag
    obtain ⟨hconfig, hrest⟩ := not_or.mp hvalue
    obtain ⟨hphone, hrest⟩ := not_or.mp hrest
    obtain ⟨hcode, hpassword⟩ := not_or.mp hrest
    cases t <;> exact (if_neg hdash).trans <| (if_neg hjson).trans <| (if_neg hquiet).trans <|
      (if_neg hhelp).trans <| (if_neg hversion).trans <| (if_neg hconfig).trans <|
      (if_neg hphone).trans <| (if_neg hcode).trans (if_neg hpassword)
  · rw [behindGlobals.eq_def]
    exact (if_neg hflag).trans (if_neg hvalue)

/-- What the global options leave: their words are accounted for, what follows them is no global
option, and the last word is read when nothing follows. -/
structure Globals (words rest : List Bytes) (out out' : ArgResult) : Prop where
  split : ∃ flags, words = flags ++ rest ∧ Accounts globalOptions [] out flags out' ∧
    ∀ t, globalFlags (flags ++ t) out = globalFlags t out'
  stops : ∀ a ∈ rest.head?, Stops a
  refuses : rest = [] → words ≠ [] → Refuses (fun words => parseWords words out) words

namespace Globals

variable {words rest : List Bytes} {out' : ArgResult}

theorem nil : Globals [] [] out out :=
  ⟨⟨[], rfl, .done, fun _ => rfl⟩, by simp, fun _ h => absurd rfl h⟩

theorem stop {a : Bytes} (h : Stops a) : Globals (a :: rest) (a :: rest) out out :=
  ⟨⟨[], rfl, .done, fun _ => rfl⟩, by simpa using h,
    fun hnil => absurd hnil (cons_ne_nil a rest)⟩

theorem flag {a : Bytes} {set : ArgResult → ArgResult} (hmem : (a, Use.flag set) ∈ globalOptions)
    (h : Globals words rest (set out) out') : Globals (a :: words) rest out out' := by
  obtain ⟨flags, hwords, haccounts, hflags⟩ := h.split
  refine ⟨⟨a :: flags, congrArg (a :: ·) hwords, .flag hmem haccounts, fun t => ?_⟩, h.stops,
    fun hrest _ => ?_⟩
  · rw [cons_append, globalFlags_flag hmem, hflags]
  · refine .append (w := [a]) ⟨[ascii "-"], _, rfl⟩ (fun t => ?_) (h.refuses hrest)
    rw [parseWords, singleton_append, globalFlags_flag hmem]
    rfl

theorem value {a v : Bytes} {set : Bytes → ArgResult → ArgResult}
    (hmem : (a, Use.text set) ∈ globalOptions) (h : Globals words rest (set v out) out') :
    Globals (a :: v :: words) rest out out' := by
  obtain ⟨hvalue, e, he⟩ := globalFlags_value hmem out
  obtain ⟨flags, hwords, haccounts, hflags⟩ := h.split
  refine ⟨⟨a :: v :: flags, congrArg (a :: v :: ·) hwords, .value hmem rfl haccounts, fun t => ?_⟩,
    h.stops, fun hrest _ => ?_⟩
  · rw [cons_append, cons_append, hvalue, hflags]
  · refine .append (w := [a, v]) ⟨[], e, ?_⟩ (fun t => ?_) (h.refuses hrest)
    · show parseWords [a] out = .error e
      rw [parseWords, he]
    · rw [parseWords, cons_append, singleton_append, hvalue]
      rfl

end Globals

theorem globals_of_globalFlags
    (h : globalFlags words out = .ok (out', rest)) : Globals words rest out out' := by
  -- an option takes two words, so the induction is on the number of words
  induction hn : words.length using Nat.strong_induction_on generalizing words out with
  | _ n ih =>
    subst hn
    rcases words with _ | ⟨a, words⟩
    · cases h
      exact .nil
    · rcases globalFlags_word a with ⟨set, hmem⟩ | ⟨set, hmem⟩ | herror | hstops
      · rw [globalFlags_flag hmem] at h
        exact .flag hmem (ih words.length (by simp) h rfl)
      · obtain ⟨hvalue, e, he⟩ := globalFlags_value hmem out
        rcases words with _ | ⟨v, words⟩
        · rw [he] at h
          cases h
        · rw [hvalue] at h
          exact .value hmem (ih words.length (by simp only [length_cons]; omega) h rfl)
      · obtain ⟨e, he⟩ := herror words out
        rw [he] at h
        cases h
      · rw [hstops.globalFlags_eq] at h
        cases h
        exact .stop hstops

theorem behindGlobals_eq (h : Globals words rest out out') : behindGlobals words = rest := by
  obtain ⟨flags, rfl, haccounts, _⟩ := h.split
  rw [behindGlobals_append rest haccounts]
  rcases rest with _ | ⟨a, rest⟩
  · rfl
  · exact (h.stops a rfl).behindGlobals_eq rest

theorem stops_of_usageOf {u : Usage} (h : usageOf subcmd = some u) :
    Stops subcmd := by
  refine stops_of_not_dash ?_
  by_contra hdash
  have hne : ∀ name : String, (!isDash (ascii name)) = true → subcmd ≠ ascii name := by
    rintro name hname rfl
    exact hdash hname
  simp only [usageOf, hne "dialogs" rfl, hne "history" rfl, hne "send" rfl, hne "search" rfl,
    hne "contacts" rfl, hne "user-info" rfl, hne "me" rfl, hne "self" rfl, hne "watch" rfl,
    hne "download" rfl, hne "edit" rfl, hne "delete" rfl, hne "send-file" rfl, hne "upload" rfl,
    hne "forward" rfl, hne "read" rfl, hne "login" rfl, or_self, if_false, reduceCtorEq] at h

theorem accounts_of_meant (h : Meant words r) (hwords : behindGlobals words = subcmd :: args) :
    ∃ u out, usageOf subcmd = some u ∧ Accounts u.options u.places out args r := by
  rcases h with h | ⟨hflags, hu, hargs⟩
  · have hnil := behindGlobals_append [] h
    rw [append_nil, hwords] at hnil
    cases hnil
  · rw [behindGlobals_append _ hflags, (stops_of_usageOf hu).behindGlobals_eq] at hwords
    cases hwords
    exact ⟨_, _, hu, hargs⟩

theorem globals_of_parseWords (h : parseWords words out = .ok r) :
    Globals words [] out r ∨ ∃ subcmd args out', Globals words (subcmd :: args) out out' ∧
      parseSubcommand subcmd args out' = .ok r := by
  rw [parseWords] at h
  rcases hflags : globalFlags words out with e | ⟨out', _ | ⟨subcmd, args⟩⟩ <;> rw [hflags] at h
  · cases h
  · dsimp only at h
    split_ifs at h
    cases h
    exact .inl (globals_of_globalFlags hflags)
  · exact .inr ⟨subcmd, args, out', globals_of_globalFlags hflags, h⟩

theorem parseWords_append
    (hflags : ∀ t, globalFlags (flags ++ t) out = globalFlags t out') (hsubcmd : Stops subcmd)
    (t : List Bytes) :
    parseWords (flags ++ [subcmd] ++ t) out = parseSubcommand subcmd t out' := by
  rw [parseWords, append_assoc, hflags, singleton_append, hsubcmd.globalFlags_eq]

theorem refuses_parseWords (h : parseWords words out = .ok r)
    (hspare : spareWords ([] :: words) = []) (hwords : words ≠ []) :
    Refuses (fun words => parseWords words out) words := by
  rcases globals_of_parseWords h with hg | ⟨subcmd, args, out', hg, hsub⟩
  · exact hg.refuses rfl hwords
  · rw [spareWords, tail_cons, behindGlobals_eq hg] at hspare
    obtain ⟨flags, rfl, _, hflags⟩ := hg.split
    have hbare : Refuses (fun words => parseWords words out) (flags ++ [subcmd]) := by
      refine ⟨[ascii "-"], ?_⟩
      rw [dropLast_concat]
      refine ⟨.error (ascii "tg-cli: unknown subcommand: " ++ ascii "-" ++ ascii "\n"), ?_⟩
      dsimp only
      rw [parseWords, hflags]
      rfl
    have hline := hbare.append (parseWords_append hflags (hg.stops subcmd rfl))
      ((followsUsage_parseSubcommand hsub).refuses hspare)
    rwa [append_assoc, singleton_append] at hline

theorem readToEnd_argParse (h : argParse argv = .ok r) (hspare : spareWords argv = []) :
    ReadToEnd (fun words => argParse (argv.take 1 ++ words)) argv.tail := by
  by_cases hargv : argv.tail = []
  · rw [hargv]
    exact readToEnd_nil _
  · rw [argParse] at h
    obtain ⟨t, e, he⟩ := refuses_parseWords h hspare hargv
    refine readToEnd_of_dropLast (t := t) ?_
    dsimp only at he ⊢
    rw [argParse_take hargv, argParse_take hargv, he, h]
    intro heq
    cases heq

theorem meant_argParse (h : argParse argv = .ok r)
    (hspare : spareWords argv = []) : Meant argv.tail r := by
  rw [argParse] at h
  rcases globals_of_parseWords h with hg | ⟨subcmd, args, out', hg, hsub⟩
  · obtain ⟨flags, hwords, haccounts, _⟩ := hg.split
    rw [hwords, append_nil]
    exact .bare haccounts
  · rw [spareWords, behindGlobals_eq hg] at hspare
    obtain ⟨u, hu, hargs⟩ := (followsUsage_parseSubcommand hsub).accounts hspare
    obtain ⟨flags, hwords, haccounts, _⟩ := hg.split
    rw [hwords]
    exact .command haccounts hu hargs

/-- The result is settled before the last word when the subcommand settles before its last
argument. -/
theorem not_readToEnd_argParse {before after : List Bytes} {x : Bytes} (h : argParse argv = .ok r)
    (hg : Globals argv.tail (subcmd :: (before ++ x :: after)) .initial out')
    (hsettled : ∀ t, parseSubcommand subcmd (before ++ t) out' = .ok r) :
    ¬ ReadToEnd (fun words => argParse (argv.take 1 ++ words)) argv.tail := by
  intro hread
  obtain ⟨flags, hwords, _, hflags⟩ := hg.split
  have hargv : argv.tail ≠ [] := by
    rw [hwords]
    simp
  obtain ⟨t, ht⟩ := hread (flags ++ [subcmd] ++ before) x after (by rw [hwords]; simp)
  refine ht ?_
  dsimp only
  rw [argParse_take hargv, argParse_take hargv, ← argParse, h, append_assoc,
    parseWords_append hflags (hg.stops subcmd rfl), hsettled]

/-- **Every word of an accepted command line is accounted for exactly if none is too many for the
subcommand.** -/
theorem accounted_iff {argv : List Bytes} {r : ArgResult} (h : argParse argv = .ok r) :
    Accounted argv r ↔ spareWords argv = [] := by
  constructor
  · intro haccounted
    by_contra hspare
    rcases globals_of_parseWords h with
      hg | ⟨subcmd, args, out', hg, hsub⟩
    · rw [spareWords, behindGlobals_eq hg] at hspare
      exact hspare rfl
    · rw [spareWords, behindGlobals_eq hg] at hspare
      rcases (followsUsage_parseSubcommand hsub).dropped hspare with
        ⟨before, x, after, rfl, hsettled⟩ | hnot
      · exact not_readToEnd_argParse h hg hsettled haccounted.read
      · obtain ⟨u, out, hu, hargs⟩ := accounts_of_meant haccounted.meant (behindGlobals_eq hg)
        exact hnot u out hu hargs
  · intro hspare
    exact ⟨readToEnd_argParse h hspare, meant_argParse h hspare⟩

/-- A reply with its options and one message uses every word. -/
theorem accounted_reply :
    Accounted [ascii "tg-cli", ascii "--quiet", ascii "send", ascii "@a", ascii "--reply",
        ascii "7", ascii "good morning"]
      { ArgResult.initial with
        quiet := true, command := .send, peer := some (ascii "@a"), replyTo := 7,
        message := some (ascii "good morning") } :=
  (accounted_iff (by decide +kernel)).mpr (by decide +kernel)

/-- `me --json` is accepted without `json`, although the user stories give it as the usage. -/
theorem not_accounted_me_json :
    ∃ r, argParse [ascii "tg-cli-ro", ascii "me", ascii "--json"] = .ok r ∧ r.json = false ∧
      ¬ Accounted [ascii "tg-cli-ro", ascii "me", ascii "--json"] r := by
  have hme : ∀ t, argParse (ascii "tg-cli-ro" :: ascii "me" :: t) =
      .ok { ArgResult.initial with command := .me } := by
    intro t
    rw [argParse, parseWords, tail_cons, (stops_of_not_dash rfl).globalFlags_eq]
    rfl
  refine ⟨{ ArgResult.initial with command := .me }, hme [ascii "--json"], rfl, fun h => ?_⟩
  obtain ⟨t, ht⟩ := h.read [ascii "me"] (ascii "--json") [] rfl
  exact ht ((hme t).trans (hme [ascii "--json"]).symm)

end TgCli.Core

import RedisRs.Decoding
import RedisRs.MapIterators

/-!
# The rules of an ACL user
-/

namespace RedisRs

open List FromRedisValue

inductive Rule
  | on
  | off
  | addCommand (cmd : String)
  | removeCommand (cmd : String)
  | addCategory (cat : String)
  | removeCategory (cat : String)
  | allCommands
  | noCommands
  | addPass (pass : String)
  | removePass (pass : String)
  | addHashedPass (pass : String)
  | removeHashedPass (pass : String)
  | noPass
  | resetPass
  | pattern (pat : String)
  | allKeys
  | resetKeys
  | channel (pat : String)
  | resetChannels
  | selector (sel : List Rule)
  | reset
  | other (rule : String)

namespace Rule

mutual

def text : Rule → String
  | on => "on"
  | off => "off"
  | addCommand cmd => "+" ++ cmd
  | removeCommand cmd => "-" ++ cmd
  | addCategory cat => "+@" ++ cat
  | removeCategory cat => "-@" ++ cat
  | allCommands => "allcommands"
  | noCommands => "nocommands"
  | addPass pass => ">" ++ pass
  | removePass pass => "<" ++ pass
  | addHashedPass pass => "#" ++ pass
  | removeHashedPass pass => "!" ++ pass
  | noPass => "nopass"
  | resetPass => "resetpass"
  | pattern pat => "~" ++ pat
  | allKeys => "allkeys"
  | resetKeys => "resetkeys"
  | channel pat => "&" ++ pat
  | resetChannels => "resetchannels"
  | selector sel => "(" ++ " ".intercalate (texts sel) ++ ")"
  | reset => "reset"
  | other rule => rule

def texts : List Rule → List String
  | [] => []
  | rule :: rules => rule.text :: texts rules

end

end Rule

structure AclInfo where
  flags : List Rule := []
  passwords : List Rule := []
  commands : List Rule := []
  keys : List Rule := []
  channels : List Rule := []
  selectors : List Rule := []

inductive AclError
  | notConvertible (v : Value) (det : String)
  | notConvertibleText (s : String) (det : String)
  | parsing (err : ParsingError)

namespace AclInfo

def unquote (s : List Char) : List Char :=
  if 2 ≤ s.length ∧ s.head? = some '"' ∧ s.getLast? = some '"' then s.tail.dropLast else s

def utf8 (bytes : Bytes) : Except AclError String := match fromUtf8 bytes with
  | some s => .ok s
  | none => .error (.parsing .invalidUtf8)

def keyName : Value → Except AclError String
  | .bulkString bytes => do return String.ofList (unquote (Resp.trim (← utf8 bytes)).toList)
  | name => .error (.notConvertible name "Expect a bulk string key name")

def words (s : String) : List (List Char) :=
  ((unquote (Resp.trim s).toList).splitOnP Resp.isWhitespace).filter (· ≠ [])

def splitTerminator (c : Char) (s : List Char) : List (List Char) :=
  let parts := s.splitOn c
  if parts.getLast? = some [] then parts.dropLast else parts

def stripFirst (c : Char) : List Char → List Char
  | d :: s => if d = c then s else d :: s
  | [] => []

def flagOf (flag : Bytes) : Rule :=
  if flag = bytesOf "on" then .on
  else if flag = bytesOf "off" then .off
  else if flag = bytesOf "allkeys" then .allKeys
  else if flag = bytesOf "allcommands" then .allCommands
  else if flag = bytesOf "nopass" then .noPass
  else .other (fromUtf8Lossy flag)

def flagRule : Value → Except AclError Rule
  | .bulkString flag => .ok (flagOf flag)
  | flag => .error (.notConvertible flag "Expect an arbitrary binary data")

def commandRule : List Char → Except AclError Rule
  | '+' :: '@' :: cat => .ok (.addCategory (String.ofList cat))
  | '-' :: '@' :: cat => .ok (.removeCategory (String.ofList cat))
  | '+' :: cmd => .ok (.addCommand (String.ofList cmd))
  | '-' :: cmd => .ok (.removeCommand (String.ofList cmd))
  | cmd => .error (.notConvertibleText (String.ofList cmd) "Expect a command addition/removal")

def keyRule (pat : List Char) : Rule := if pat = ['*'] then .allKeys else .pattern (String.ofList pat)

def channelRule (pat : List Char) : Rule := .channel (String.ofList (stripFirst '&' pat))

def sequenceOf (value : Value) (det : String) : Except AclError (List Value) := match value.asSequence with
  | some items => .ok items
  | none => .error (.notConvertible value det)

variable [Libraries]

def stringOf (v : Value) : Except AclError String := (fromRedisValueRef v).mapError .parsing

def parseCommands : Value → Except AclError (List Rule)
  | .bulkString cmd => do (splitTerminator ' ' (← utf8 cmd).toList).mapM commandRule
  | value => .error (.notConvertible value "Expect a valid UTF8 string for commands")

def parseKeys : Value → Except AclError (List Rule)
  | .array arr => arr.mapM fun pat => do return keyRule (← stringOf pat).toList
  | .bulkString bs => do return (words (← utf8 bs)).map fun tok => keyRule (stripFirst '~' tok)
  | other => .error (.notConvertible other "Expect an array or bulk-string of keys")

def parseChannels : Value → Except AclError (List Rule)
  | .array arr | .set arr => arr.mapM fun pat => do return channelRule (← stringOf pat).toList
  | .bulkString bs => do return (words (← utf8 bs)).map channelRule
  | other => .error (.notConvertible other "Expect an array or bulk-string of channels")

def parseSelectors (convert : Value → Except AclError AclInfo) : Value → Except AclError (List Rule)
  | .array arr | .set arr => do
    let selectors ← arr.mapM fun pat => do
      let acl ← convert pat
      return acl.flags ++ acl.commands ++ acl.channels ++ acl.keys
    return selectors.flatten
  | other => .error (.notConvertible other "Expect an array or bulk-string of selectors")

def handlePair (convert : Value → Except AclError AclInfo) (acl : AclInfo) (pair : Value × Value) :
    Except AclError AclInfo := do
  match ← keyName pair.1 with
  | "flags" => do
    return { acl with flags := ← (← sequenceOf pair.2 "Expect an array response of ACL flags").mapM flagRule }
  | "passwords" => do
    let items ← sequenceOf pair.2 "Expect an array response of ACL passwords"
    return { acl with passwords := ← items.mapM fun pass => do return .addHashedPass (← stringOf pass) }
  | "commands" => return { acl with commands := ← parseCommands pair.2 }
  | "keys" => return { acl with keys := ← parseKeys pair.2 }
  | "channels" => return { acl with channels := ← parseChannels pair.2 }
  | "selectors" => return { acl with selectors := ← parseSelectors convert pair.2 }
  | _ => return acl

def fromRedisValueAt : Nat → Value → Except AclError AclInfo
  | 0, v => .error (.notConvertible v "")
  | n + 1, v => match v.asMapIter with
    | some pairs => pairs.foldlM (handlePair (fromRedisValueAt n)) {}
    | none => match v.asSequence with
      | some seq =>
        if seq.length % 2 ≠ 0 then .error (.notConvertible v "")
        else (pairUp seq).foldlM (handlePair (fromRedisValueAt n)) {}
      | none => .error (.notConvertible v "")

def fromRedisValue (v : Value) : Except AclError AclInfo := fromRedisValueAt (v.levels 1 + 1) v

end AclInfo

/-- No white space and no quotes. -/
def IsPlain (s : List Char) : Prop := ∀ c ∈ s, Resp.isWhitespace c = false ∧ c ≠ '"'

inductive KeyMode
  | read
  | write
  | readWrite

def KeyMode.chars : Option KeyMode → List Char
  | none => []
  | some read => ['%', 'R']
  | some write => ['%', 'W']
  | some readWrite => ['%', 'R', 'W']

structure AclPermissions where
  commands : List (Bool × List Char)
  keys : List (Option KeyMode × List Char)
  channels : List (List Char)
  plainCommands : ∀ c ∈ commands, ' ' ∉ c.2
  plainKeys : ∀ k ∈ keys, IsPlain k.2
  plainChannels : ∀ c ∈ channels, IsPlain c

structure AclUser extends AclPermissions where
  flags : List Bytes
  passwords : List String
  selectors : List AclPermissions

def pairsValue (resp3 : Bool) (pairs : List (Value × Value)) : Value :=
  if resp3 then .map pairs else .array (pairs.flatMap fun pair => [pair.1, pair.2])

def setValue (resp3 : Bool) (items : List Value) : Value := if resp3 then .set items else .array items

theorem asSequence_setValue (resp3 : Bool) (items : List Value) : (setValue resp3 items).asSequence = some items := by
  cases resp3 <;> rfl

def joined (tokens : List (List Char)) : Value := textValue (String.ofList ([' '].intercalate tokens))

namespace AclPermissions

variable (p : AclPermissions)

def commandTokens : List (List Char) := p.commands.map fun c => (if c.1 then '+' else '-') :: c.2

def keyTokens : List (List Char) := p.keys.map fun k => KeyMode.chars k.1 ++ '~' :: k.2

def channelTokens : List (List Char) := p.channels.map ('&' :: ·)

def pairs : List (Value × Value) :=
  [(textValue "commands", joined p.commandTokens), (textValue "keys", joined p.keyTokens),
    (textValue "channels", joined p.channelTokens)]

def token : String :=
  "(" ++ " ".intercalate ((p.commandTokens ++ p.keyTokens ++ p.channelTokens).map String.ofList) ++ ")"

end AclPermissions

def AclUser.reply (resp3 : Bool) (u : AclUser) : Value :=
  pairsValue resp3 ([(textValue "flags", setValue resp3 (u.flags.map .bulkString)),
      (textValue "passwords", .array (u.passwords.map textValue))] ++
    u.pairs ++ [(textValue "selectors", .array (u.selectors.map fun p => pairsValue resp3 p.pairs))])

def keyText (token : List Char) : String := if token = ['~', '*'] then "allkeys" else String.ofList token

section Tokens

variable {tokens : List (List Char)}

theorem join_induction {P : List Char → Prop} (hnil : P []) (hone : ∀ t ∈ tokens, P t) (hne : ∀ t ∈ tokens, t ≠ [])
    (hmore : ∀ t ∈ tokens, ∀ j, j ≠ [] → P j → P (t ++ ' ' :: j)) : P ([' '].intercalate tokens) := by
  have hall : tokens ≠ [] → [' '].intercalate tokens ≠ [] ∧ P ([' '].intercalate tokens) := by
    induction tokens with
    | nil => exact fun h => absurd rfl h
    | cons t tokens ih =>
      intro _
      cases tokens with
      | nil =>
        rw [intercalate_singleton]
        exact ⟨hne t mem_cons_self, hone t mem_cons_self⟩
      | cons t' tokens =>
        obtain ⟨hj, hP⟩ := ih (fun t ht => hone t (mem_cons_of_mem _ ht)) (fun t ht => hne t (mem_cons_of_mem _ ht))
          (fun t ht => hmore t (mem_cons_of_mem _ ht)) (cons_ne_nil _ _)
        rw [intercalate_cons_cons, append_assoc]
        exact ⟨by simp, hmore t mem_cons_self _ hj hP⟩
  cases tokens with
  | nil => exact hnil
  | cons t tokens => exact (hall (cons_ne_nil _ _)).2

theorem splitTerminator_join (h : ∀ t ∈ tokens, t ≠ [] ∧ ' ' ∉ t) :
    AclInfo.splitTerminator ' ' ([' '].intercalate tokens) = tokens := by
  cases tokens with
  | nil => rfl
  | cons t tokens =>
    have hlast : (t :: tokens).getLast? ≠ some [] := fun hlast => (h [] (mem_of_getLast? hlast)).1 rfl
    rw [AclInfo.splitTerminator, splitOn_intercalate ' ' (fun t ht => (h t ht).2) (cons_ne_nil _ _), if_neg hlast]

theorem splitOnP_join (h : ∀ t ∈ tokens, ∀ c ∈ t, Resp.isWhitespace c = false) (hne : tokens ≠ []) :
    ([' '].intercalate tokens).splitOnP Resp.isWhitespace = tokens := by
  induction tokens with
  | nil => exact absurd rfl hne
  | cons t tokens ih =>
    have ht := h t mem_cons_self
    cases tokens with
    | nil => rw [intercalate_singleton, splitOnP_eq_singleton ht]
    | cons t' tokens =>
      rw [intercalate_cons_cons, append_assoc, singleton_append,
        splitOnP_append_cons_of_forall_mem ht ' ' rfl, ih (fun t ht => h t (mem_cons_of_mem _ ht)) (cons_ne_nil _ _)]

theorem dropWhile_whitespace {s : List Char} (h : ∀ c, s.head? = some c → Resp.isWhitespace c = false) :
    s.dropWhile Resp.isWhitespace = s := by
  cases s with
  | nil => rfl
  | cons c s => exact dropWhile_cons_of_neg (by simp [h c rfl])

theorem unquote_of_not_mem {s : List Char} (h : '"' ∉ s) : AclInfo.unquote s = s :=
  if_neg fun hq => h (mem_of_head? hq.2.1)

theorem words_join (h : ∀ t ∈ tokens, t ≠ [] ∧ IsPlain t) :
    AclInfo.words (String.ofList ([' '].intercalate tokens)) = tokens := by
  have hends : (∀ c, ([' '].intercalate tokens).head? = some c → Resp.isWhitespace c = false) ∧
      (∀ c, ([' '].intercalate tokens).getLast? = some c → Resp.isWhitespace c = false) ∧
      '"' ∉ [' '].intercalate tokens := by
    refine join_induction (P := fun j => (∀ c, j.head? = some c → Resp.isWhitespace c = false) ∧
      (∀ c, j.getLast? = some c → Resp.isWhitespace c = false) ∧ '"' ∉ j) ?_ ?_ (fun t ht => (h t ht).1) ?_
    · exact ⟨nofun, nofun, nofun⟩
    · intro t ht
      exact ⟨fun c hc => ((h t ht).2 c (mem_of_head? hc)).1, fun c hc => ((h t ht).2 c (mem_of_getLast? hc)).1,
        fun hq => ((h t ht).2 _ hq).2 rfl⟩
    · rintro t ht j hj ⟨-, hlast, hquote⟩
      refine ⟨fun c hc => ?_, fun c hc => ?_, ?_⟩
      · rw [head?_append_of_ne_nil _ (h t ht).1] at hc
        exact ((h t ht).2 c (mem_of_head? hc)).1
      · rw [← singleton_append, ← append_assoc, getLast?_append_of_ne_nil _ hj] at hc
        exact hlast c hc
      · have ht : '"' ∉ t := fun hq => ((h t ht).2 _ hq).2 rfl
        simp [ht, hquote]
  obtain ⟨hhead, hlast, hquote⟩ := hends
  have htrim : (Resp.trim (String.ofList ([' '].intercalate tokens))).toList = [' '].intercalate tokens := by
    rw [Resp.trim, String.toList_ofList, String.toList_ofList, dropWhile_whitespace hhead,
      dropWhile_whitespace (by rwa [head?_reverse]), reverse_reverse]
  rw [AclInfo.words, htrim, unquote_of_not_mem hquote]
  cases tokens with
  | nil => rfl
  | cons t tokens =>
    rw [splitOnP_join (fun t ht c hc => ((h t ht).2 c hc).1) (cons_ne_nil _ _), filter_eq_self]
    intro t ht
    simpa using (h t ht).1

end Tokens

namespace AclPermissions

open AclInfo

variable (p : AclPermissions)

def commandRule : Bool × List Char → Rule
  | (true, '@' :: cat) => .addCategory (String.ofList cat)
  | (false, '@' :: cat) => .removeCategory (String.ofList cat)
  | (true, cmd) => .addCommand (String.ofList cmd)
  | (false, cmd) => .removeCommand (String.ofList cmd)

def commandRules : List Rule := p.commands.map commandRule

def keyRules : List Rule := p.keyTokens.map fun tok => keyRule (stripFirst '~' tok)

def channelRules : List Rule := p.channelTokens.map channelRule

theorem append_ofList (s : String) (l : List Char) : s ++ String.ofList l = String.ofList (s.toList ++ l) := by
  rw [String.ofList_append, String.ofList_toList]

theorem commandRule_eq (c : Bool × List Char) :
    AclInfo.commandRule ((if c.1 then '+' else '-') :: c.2) = .ok (commandRule c) ∧
      (commandRule c).text = String.ofList ((if c.1 then '+' else '-') :: c.2) := by
  match c with
  | (true, []) => exact ⟨rfl, rfl⟩
  | (false, []) => exact ⟨rfl, rfl⟩
  | (true, d :: cmd) =>
    by_cases hd : d = '@'
    · subst hd
      exact ⟨rfl, append_ofList "+@" cmd⟩
    · simp [AclInfo.commandRule, commandRule, Rule.text, hd]
  | (false, d :: cmd) =>
    by_cases hd : d = '@'
    · subst hd
      exact ⟨rfl, append_ofList "-@" cmd⟩
    · simp [AclInfo.commandRule, commandRule, Rule.text, hd]

theorem utf8_bytesOf (s : String) : utf8 (bytesOf s) = .ok s := by
  rw [utf8, fromUtf8_bytesOf]

theorem keyName_textValue (s : String) : keyName (textValue s) = .ok (String.ofList (unquote (Resp.trim s).toList)) := by
  rw [textValue, keyName, utf8_bytesOf]
  rfl

theorem parseCommands_joined : parseCommands (joined p.commandTokens) = .ok p.commandRules := by
  have htoks : ∀ t ∈ p.commandTokens, t ≠ [] ∧ ' ' ∉ t := by
    intro t ht
    obtain ⟨c, hc, rfl⟩ := mem_map.1 ht
    refine ⟨cons_ne_nil _ _, fun hmem => ?_⟩
    rcases mem_cons.1 hmem with heq | hmem
    · split at heq <;> cases heq
    · exact p.plainCommands c hc hmem
  rw [joined, textValue, parseCommands, utf8_bytesOf]
  show (splitTerminator ' ' (String.ofList _).toList).mapM _ = _
  rw [String.toList_ofList, splitTerminator_join htoks, commandTokens, mapM_map]
  exact mapM_eq_ok_map fun c _ => (commandRule_eq c).1

variable [Libraries]

theorem parseKeys_joined : parseKeys (joined p.keyTokens) = .ok p.keyRules := by
  have htoks : ∀ t ∈ p.keyTokens, t ≠ [] ∧ IsPlain t := by
    intro t ht
    obtain ⟨⟨mode, pat⟩, hk, rfl⟩ := mem_map.1 ht
    refine ⟨by simp, fun c hc => ?_⟩
    rcases mem_append.1 hc with hc | hc
    · have hall : ∀ m, ∀ c ∈ KeyMode.chars m, Resp.isWhitespace c = false ∧ c ≠ '"' := by
        rintro (_ | _ | _ | _) <;> simp [KeyMode.chars, Resp.isWhitespace]
      exact hall mode c hc
    · rcases mem_cons.1 hc with rfl | hc
      · decide
      · exact p.plainKeys _ hk c hc
  rw [joined, textValue, parseKeys, utf8_bytesOf]
  show Except.ok ((words (String.ofList _)).map _) = _
  rw [words_join htoks]
  rfl

theorem parseChannels_joined : parseChannels (joined p.channelTokens) = .ok p.channelRules := by
  have htoks : ∀ t ∈ p.channelTokens, t ≠ [] ∧ IsPlain t := by
    intro t ht
    obtain ⟨pat, hpat, rfl⟩ := mem_map.1 ht
    refine ⟨cons_ne_nil _ _, forall_mem_cons.2 ⟨by decide, p.plainChannels pat hpat⟩⟩
  rw [joined, textValue, parseChannels, utf8_bytesOf]
  show Except.ok ((words (String.ofList _)).map _) = _
  rw [words_join htoks]
  rfl

theorem foldlM_pairs (convert : Value → Except AclError AclInfo) (acl : AclInfo) :
    p.pairs.foldlM (handlePair convert) acl =
      .ok { acl with commands := p.commandRules, keys := p.keyRules, channels := p.channelRules } := by
  have hcmds : ∀ acl, handlePair convert acl (textValue "commands", joined p.commandTokens) =
      .ok { acl with commands := p.commandRules } := fun acl => by
    rw [handlePair, keyName_textValue]
    show (parseCommands _ >>= _) = _
    rw [parseCommands_joined]
    rfl
  have hkeys : ∀ acl, handlePair convert acl (textValue "keys", joined p.keyTokens) =
      .ok { acl with keys := p.keyRules } := fun acl => by
    rw [handlePair, keyName_textValue]
    show (parseKeys _ >>= _) = _
    rw [parseKeys_joined]
    rfl
  have hchans : ∀ acl, handlePair convert acl (textValue "channels", joined p.channelTokens) =
      .ok { acl with channels := p.channelRules } := fun acl => by
    rw [handlePair, keyName_textValue]
    show (parseChannels _ >>= _) = _
    rw [parseChannels_joined]
    rfl
  rw [pairs, foldlM_cons, hcmds]
  show List.foldlM _ _ _ = _
  rw [foldlM_cons, hkeys]
  show List.foldlM _ _ _ = _
  rw [foldlM_cons, hchans]
  rfl

def selectorRules : List Rule := p.commandRules ++ p.channelRules ++ p.keyRules

omit [Libraries] in
theorem asMapIter_pairsValue (resp3 : Bool) (pairs : List (Value × Value)) :
    (pairsValue resp3 pairs).asMapIter = some pairs := by
  cases resp3 with
  | true => rfl
  | false =>
    obtain ⟨hlen, hpairs⟩ := pairUp_flatMap pairs
    show (if _ then _ else _) = _
    rw [if_pos hlen, hpairs]

theorem fromRedisValueAt_pairs (n : Nat) (resp3 : Bool) : fromRedisValueAt (n + 1) (pairsValue resp3 p.pairs) =
    .ok { commands := p.commandRules, keys := p.keyRules, channels := p.channelRules } := by
  rw [fromRedisValueAt, asMapIter_pairsValue]
  exact p.foldlM_pairs _ {}

theorem parseSelectors_eq (n : Nat) (resp3 : Bool) (selectors : List AclPermissions) :
    parseSelectors (fromRedisValueAt (n + 1)) (.array (selectors.map fun p => pairsValue resp3 p.pairs)) =
      .ok (selectors.flatMap selectorRules) := by
  have heach : (selectors.map fun p => pairsValue resp3 p.pairs).mapM (fun pat => do
      let acl ← fromRedisValueAt (n + 1) pat
      return acl.flags ++ acl.commands ++ acl.channels ++ acl.keys) = .ok (selectors.map selectorRules) := by
    rw [mapM_map]
    refine mapM_eq_ok_map fun p _ => ?_
    simp only [Function.comp, fromRedisValueAt_pairs]
    rfl
  rw [parseSelectors, heach, flatMap_def]
  rfl

end AclPermissions

namespace AclUser

open AclInfo AclPermissions

variable [Libraries] (u : AclUser)

theorem fromRedisValue_reply (resp3 : Bool) : ∃ flags passwords, AclInfo.fromRedisValue (u.reply resp3) =
    .ok ⟨flags, passwords, u.commandRules, u.keyRules, u.channelRules, u.selectors.flatMap selectorRules⟩ := by
  have hflags : (u.flags.map Value.bulkString).mapM flagRule = .ok (u.flags.map flagOf) := by
    rw [mapM_map]
    exact mapM_eq_ok_map fun _ _ => rfl
  have hpasswords : (u.passwords.map textValue).mapM (fun pass => do return Rule.addHashedPass (← stringOf pass)) =
      .ok (u.passwords.map .addHashedPass) := by
    rw [mapM_map]
    refine mapM_eq_ok_map fun s _ => ?_
    simp only [Function.comp, stringOf, textValue, fromRedisValueRef, getInnerValue, fromUtf8_bytesOf]
    rfl
  obtain ⟨n, hn⟩ : ∃ n, (u.reply resp3).levels 1 = n + 1 := by cases resp3 <;> exact ⟨_, rfl⟩
  have hfirst : [(textValue "flags", setValue resp3 (u.flags.map .bulkString)),
      (textValue "passwords", Value.array (u.passwords.map textValue))].foldlM (handlePair (fromRedisValueAt (n + 1))) {} =
        .ok { flags := u.flags.map flagOf, passwords := u.passwords.map .addHashedPass } := by
    rw [foldlM_cons, handlePair, keyName_textValue]
    show (sequenceOf (setValue resp3 _) _ >>= _) >>= _ = _
    rw [sequenceOf, asSequence_setValue]
    show ((u.flags.map Value.bulkString).mapM flagRule >>= _) >>= _ = _
    rw [hflags]
    show List.foldlM _ _ _ = _
    rw [foldlM_cons, handlePair, keyName_textValue]
    show ((u.passwords.map textValue).mapM _ >>= _) >>= _ = _
    rw [hpasswords]
    rfl
  have hlast : ∀ acl, [(textValue "selectors", Value.array (u.selectors.map fun p => pairsValue resp3 p.pairs))].foldlM
      (handlePair (fromRedisValueAt (n + 1))) acl = .ok { acl with selectors := u.selectors.flatMap selectorRules } := by
    intro acl
    rw [foldlM_cons, handlePair, keyName_textValue]
    show (parseSelectors _ _ >>= _) >>= _ = _
    rw [parseSelectors_eq]
    rfl
  refine ⟨u.flags.map flagOf, u.passwords.map .addHashedPass, ?_⟩
  rw [AclInfo.fromRedisValue, hn, fromRedisValueAt, reply, asMapIter_pairsValue]
  show List.foldlM _ _ _ = _
  rw [foldlM_append, foldlM_append, hfirst]
  show List.foldlM _ _ _ >>= _ = _
  rw [foldlM_pairs]
  exact hlast _

end AclUser

namespace AclPermissions

open AclInfo

variable (p : AclPermissions)

theorem text_commandRules : p.commandRules.map Rule.text = p.commandTokens.map String.ofList := by
  rw [commandRules, commandTokens, map_map, map_map]
  exact map_congr_left fun c _ => (commandRule_eq c).2

theorem text_channelRules : p.channelRules.map Rule.text = p.channelTokens.map String.ofList := by
  rw [channelRules, channelTokens, map_map, map_map, map_map]
  exact map_congr_left fun pat _ => append_ofList "&" pat

theorem text_keyRule_iff (k : Option KeyMode × List Char) :
    (keyRule (stripFirst '~' (KeyMode.chars k.1 ++ '~' :: k.2))).text = keyText (KeyMode.chars k.1 ++ '~' :: k.2) ↔
      k.1 = none := by
  obtain ⟨mode, pat⟩ := k
  cases mode with
  | none =>
    refine iff_of_true ?_ rfl
    show (keyRule pat).text = keyText ('~' :: pat)
    by_cases hall : pat = ['*']
    · rw [hall]
      rfl
    · rw [keyRule, if_neg hall, keyText, if_neg fun h => hall (List.cons.inj h).2]
      exact append_ofList "~" pat
  | some mode =>
    refine iff_of_false (fun h => ?_) nofun
    have hchars : ∃ rest, KeyMode.chars (some mode) ++ '~' :: pat = '%' :: rest := by cases mode <;> exact ⟨_, rfl⟩
    obtain ⟨rest, hrest⟩ := hchars
    have hhead := congrArg (fun s => s.toList.head?) h
    simp [hrest, stripFirst, keyRule, keyText, Rule.text] at hhead

theorem text_keyRules_iff : p.keyRules.map Rule.text = p.keyTokens.map keyText ↔ ∀ k ∈ p.keys, k.1 = none := by
  rw [keyRules, keyTokens, map_map, map_map, map_map, map_inj_left]
  exact forall₂_congr fun k _ => text_keyRule_iff k

theorem head_selectorRules {rule : Rule} (h : rule ∈ p.selectorRules) : rule.text.toList.head? ≠ some '(' := by
  rcases mem_append.1 h with h | h
  · rcases mem_append.1 h with h | h
    · have hmem := p.text_commandRules ▸ mem_map_of_mem (f := Rule.text) h
      obtain ⟨_, ht, heq⟩ := mem_map.1 hmem
      obtain ⟨c, -, rfl⟩ := mem_map.1 ht
      rw [← heq, String.toList_ofList, head?_cons]
      split <;> decide
    · have hmem := p.text_channelRules ▸ mem_map_of_mem (f := Rule.text) h
      obtain ⟨_, ht, heq⟩ := mem_map.1 hmem
      obtain ⟨pat, -, rfl⟩ := mem_map.1 ht
      rw [← heq, String.toList_ofList, head?_cons]
      decide
  · obtain ⟨tok, -, rfl⟩ := mem_map.1 h
    simp only [keyRule]
    split <;> simp [Rule.text]

theorem text_selectorRules_iff (selectors : List AclPermissions) :
    (selectors.flatMap selectorRules).map Rule.text = selectors.map token ↔ selectors = [] := by
  constructor
  · intro h
    cases selectors with
    | nil => rfl
    | cons p selectors =>
      have hmem : p.token ∈ ((p :: selectors).flatMap selectorRules).map Rule.text := by
        rw [h]
        exact mem_cons_self
      obtain ⟨rule, hrule, heq⟩ := mem_map.1 hmem
      obtain ⟨q, -, hrule⟩ := mem_flatMap.1 hrule
      refine absurd ?_ (q.head_selectorRules hrule)
      rw [heq, token]
      simp
  · rintro rfl
    rfl

end AclPermissions

/-- The tokens of the commands and the channels are written as they were read. Those of the keys and selectors are exactly
if no key is limited to reading or writing and there are no selectors. -/
theorem acl_rules_survive_iff [Libraries] (resp3 : Bool) (u : AclUser) : ∃ info,
    AclInfo.fromRedisValue (u.reply resp3) = .ok info ∧
    info.commands.map Rule.text = u.commandTokens.map String.ofList ∧
    info.channels.map Rule.text = u.channelTokens.map String.ofList ∧
    (info.keys.map Rule.text = u.keyTokens.map keyText ∧
        info.selectors.map Rule.text = u.selectors.map AclPermissions.token ↔
      (∀ k ∈ u.keys, k.1 = none) ∧ u.selectors = []) := by
  obtain ⟨flags, passwords, hreply⟩ := u.fromRedisValue_reply resp3
  refine ⟨_, hreply, u.text_commandRules, u.text_channelRules, ?_⟩
  exact and_congr u.text_keyRules_iff (AclPermissions.text_selectorRules_iff u.selectors)

def limitedUser : AclUser where
  commands := []
  keys := [(some .read, ['k'])]
  channels := []
  plainCommands := nofun
  plainKeys := by simp [IsPlain]; decide
  plainChannels := nofun
  flags := []
  passwords := []
  selectors := [⟨[(true, ['g', 'e', 't'])], [], [], by simp, nofun, nofun⟩]

@[reducible]
def noBigNumbers : Libraries := ⟨fun _ => "", fun _ => Unit, fun _ _ => none, fun _ _ => none⟩

theorem acl_rules_widened :
    (@AclInfo.fromRedisValue noBigNumbers (limitedUser.reply true)).map (fun info =>
      (info.keys.map Rule.text, info.selectors.map Rule.text)) = .ok (["~%R~k"], ["+get"]) ∧
    (limitedUser.keyTokens.map keyText, limitedUser.selectors.map AclPermissions.token) = (["%R~k"], ["(+get)"]) := by
  obtain ⟨flags, passwords, hreply⟩ := @AclUser.fromRedisValue_reply noBigNumbers limitedUser true
  rw [hreply]
  exact ⟨rfl, by decide⟩

end RedisRs

import RedisRs.Incremental
import RedisRs.Texts

/-!
# The parser of replies
-/

namespace RedisRs.Resp

open Incremental

inductive ParserError
  | message (text : String)
  | utf8
  | float
  | unexpectedToken (b : UInt8)
  | expectedCrlf
deriving DecidableEq, Repr

abbrev Parser := Incremental.Parser ParserError UInt8

structure NumberParsers where
  parseF64 : String → Option UInt64
  parseBigInt : Bytes → Option Int

def maxRecurseDepth : Nat := 100

def errKind : String → Option ServerErrorKind
  | "ERR" => some .responseError
  | "EXECABORT" => some .execAbort
  | "LOADING" => some .busyLoading
  | "NOSCRIPT" => some .noScript
  | "MOVED" => some .moved
  | "ASK" => some .ask
  | "TRYAGAIN" => some .tryAgain
  | "CLUSTERDOWN" => some .clusterDown
  | "CROSSSLOT" => some .crossSlot
  | "MASTERDOWN" => some .masterDown
  | "READONLY" => some .readOnly
  | "NOTBUSY" => some .notBusy
  | "NOSUB" => some .noSub
  | "NOPERM" => some .noPerm
  | _ => none

def splitFirst (sep : Char) (s : String) : String × Option String :=
  let (first, rest) := s.toList.span (· ≠ sep)
  (String.ofList first, match rest with
    | [] => none
    | _ :: rest => some (String.ofList rest))

def errParser (line : String) : ServerError :=
  let (code, detail) := splitFirst ' ' line
  match errKind code with
  | some kind => .known kind detail
  | none => .extension code detail

def getPushKind : String → PushKind
  | "invalidate" => .invalidate
  | "message" => .message
  | "pmessage" => .pMessage
  | "smessage" => .sMessage
  | "unsubscribe" => .unsubscribe
  | "punsubscribe" => .pUnsubscribe
  | "sunsubscribe" => .sUnsubscribe
  | "subscribe" => .subscribe
  | "psubscribe" => .pSubscribe
  | "ssubscribe" => .sSubscribe
  | kind => .other kind

def isWhitespace (c : Char) : Bool :=
  let n := c.toNat
  (0x9 ≤ n ∧ n ≤ 0xd) ∨ [0x20, 0x85, 0xa0, 0x1680].contains n ∨ (0x2000 ≤ n ∧ n ≤ 0x200a) ∨
    [0x2028, 0x2029, 0x202f, 0x205f, 0x3000].contains n

def trim (s : String) : String :=
  String.ofList ((s.toList.dropWhile isWhitespace).reverse.dropWhile isWhitespace).reverse

def asUsize (n : Int) : Nat := (n % 2 ^ 64).toNat

def line : Parser String := do
  let bytes ← Incremental.Parser.takeUntil '\r'.toUInt8 '\n'.toUInt8
  match fromUtf8 bytes with
  | some line => pure line
  | none => .fail .utf8

def crlfToken : Parser Unit := do
  .token '\r'.toUInt8 .expectedCrlf
  .token '\n'.toUInt8 .expectedCrlf

def simpleString : Parser Value := do
  let line ← line
  pure (if line = "OK" then .okay else .simpleString line)

def int : Parser Int := do
  match parseInt (-2 ^ 63) (2 ^ 63 - 1) (trim (← line)) with
  | some n => pure n
  | none => .fail (.message "Expected integer, got garbage")

def bulkString : Parser Value := do
  let size ← int
  if size < 0 then pure .nil
  else
    let bytes ← Incremental.Parser.take (asUsize size)
    crlfToken
    pure (.bulkString bytes)

def blob : Parser String := do
  let size ← int
  let bytes ← Incremental.Parser.take (asUsize size)
  crlfToken
  pure (fromUtf8Lossy bytes)

def error : Parser ServerError := do
  let line ← line
  pure (errParser line)

def null : Parser Value := do
  let _ ← line
  pure .nil

def boolean : Parser Bool := do
  match ← line with
  | "t" => pure true
  | "f" => pure false
  | _ => .fail (.message "Expected boolean, got garbage")

def blobError : Parser ServerError := do
  let line ← blob
  pure (errParser line)

def verbatim : Parser Value := do
  match splitFirst ':' (← blob) with
  | (format, some text) =>
    let format : VerbatimFormat := match format with
      | "txt" => .text
      | "mkd" => .markdown
      | x => .unknown x
    pure (.verbatimString format text)
  | (_, none) => .fail (.message "parse error when decoding verbatim string")

variable (nums : NumberParsers)

def double : Parser UInt64 := do
  match nums.parseF64 (trim (← line)) with
  | some bits => pure bits
  | none => .fail .float

def bigNumber : Parser Value := do
  match nums.parseBigInt (bytesOf (← line)) with
  | some n => pure (.bigNumber n)
  | none => .fail (.message "Expected bigint, got garbage")

def takePairs : Nat → List Value → List (Value × Value) × List Value
  | n + 1, k :: v :: rest => let (items, left) := takePairs n rest; ((k, v) :: items, left)
  | _, items => ([], items)

section Containers

variable (item : Parser Value)

def array : Parser Value := do
  let length ← int
  if length < 0 then pure .nil
  else
    let items ← item.count (asUsize length)
    pure (.array items)

def keyValueLengthTooLarge : ParserError := .message "Attribute key-value length is too large"

def map : Parser Value := do
  let kvLength ← int
  let length := asUsize kvLength * 2
  if length < 2 ^ 64 then
    let items ← item.count length
    pure (.map (takePairs kvLength.toNat items).1)
  else .unexpectedAny keyValueLengthTooLarge

def attributeValue : Parser Value := do
  let kvLength ← int
  let length := asUsize kvLength * 2
  if length < 2 ^ 64 then
    let items ← item.count (length + 1)
    match takePairs kvLength.toNat items with
    | (attributes, data :: _) => pure (.attribute data attributes)
    -- there is one value more than in the pairs, which is unwrapped
    | (_, []) => .fail (.message "called `Option::unwrap()` on a `None` value")
  else .unexpectedAny keyValueLengthTooLarge

def set : Parser Value := do
  let length ← int
  if length < 0 then pure .nil
  else
    let items ← item.count (asUsize length)
    pure (.set items)

def pushOf : List Value → Except ParserError Value
  | .bulkString kind :: data => match fromUtf8 kind with
    | some kind => .ok (.push (getPushKind kind) data)
    | none => .error .utf8
  | .simpleString kind :: data => .ok (.push (getPushKind kind) data)
  | _ => .error (.message "parse error when decoding push")

def push : Parser Value := do
  let length ← int
  if length ≤ 0 then pure (.push (.other "") [])
  else
    let items ← item.count (asUsize length)
    .ofExcept (pushOf items)

def valueOf (b : UInt8) : Parser Value :=
  match Char.ofNat b.toNat with
  | '+' => simpleString
  | ':' => do
    let n ← int
    pure (.int (Int64.ofInt n))
  | '$' => bulkString
  | '*' => array item
  | '%' => map item
  | '|' => attributeValue item
  | '~' => set item
  | '-' => do
    let err ← error
    pure (.serverError err)
  | '_' => null
  | ',' => do
    let bits ← double nums
    pure (.double bits)
  | '#' => do
    let b ← boolean
    pure (.boolean b)
  | '!' => do
    let err ← blobError
    pure (.serverError err)
  | '=' => verbatim
  | '(' => bigNumber nums
  | '>' => push item
  | _ => .unexpectedAny (.unexpectedToken b)

end Containers

def valueAt : Nat → Parser Value
  | 0 => do
    let _ ← Incremental.Parser.any
    .unexpectedAny (.message "Maximum recursion depth exceeded")
  | levels + 1 => do
    let b ← Incremental.Parser.any
    valueOf nums (valueAt levels) b

def value (count : Option Nat) : Parser Value := valueAt nums (maxRecurseDepth + 1 - count.getD 1)

end RedisRs.Resp

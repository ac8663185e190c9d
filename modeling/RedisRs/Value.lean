import Mathlib.Data.List.Basic

/-!
# Values of the Redis protocol
-/

namespace RedisRs

abbrev Bytes := List UInt8

def bytesOf (s : String) : Bytes := s.toUTF8.data.toList

inductive ServerErrorKind
  | responseError
  | execAbort
  | busyLoading
  | noScript
  | moved
  | ask
  | tryAgain
  | clusterDown
  | crossSlot
  | masterDown
  | readOnly
  | notBusy
  | noSub
  | noPerm
deriving DecidableEq, Repr

def ServerErrorKind.code : ServerErrorKind → String
  | responseError => "ERR"
  | execAbort => "EXECABORT"
  | busyLoading => "LOADING"
  | noScript => "NOSCRIPT"
  | moved => "MOVED"
  | ask => "ASK"
  | tryAgain => "TRYAGAIN"
  | clusterDown => "CLUSTERDOWN"
  | crossSlot => "CROSSSLOT"
  | masterDown => "MASTERDOWN"
  | readOnly => "READONLY"
  | notBusy => "NOTBUSY"
  | noSub => "NOSUB"
  | noPerm => "NOPERM"

inductive ServerError
  | extension (code : String) (detail : Option String)
  | known (kind : ServerErrorKind) (detail : Option String)
deriving DecidableEq, Repr

namespace ServerError

def kind : ServerError → Option ServerErrorKind
  | extension _ _ => none
  | known kind _ => some kind

def code : ServerError → String
  | extension code _ => code
  | known kind _ => kind.code

def details : ServerError → Option String
  | extension _ detail => detail
  | known _ detail => detail

end ServerError

inductive VerbatimFormat
  | unknown (format : String)
  | markdown
  | text
deriving DecidableEq, Repr

inductive PushKind
  | disconnection
  | other (kind : String)
  | invalidate
  | message
  | pMessage
  | sMessage
  | unsubscribe
  | pUnsubscribe
  | sUnsubscribe
  | subscribe
  | pSubscribe
  | sSubscribe
deriving DecidableEq, Repr

def PushKind.hasReply : PushKind → Bool
  | unsubscribe | pUnsubscribe | sUnsubscribe | subscribe | pSubscribe | sSubscribe => true
  | _ => false

inductive Value
  | nil
  | int (n : Int64)
  | bulkString (bytes : Bytes)
  | array (items : List Value)
  | simpleString (s : String)
  | okay
  | map (items : List (Value × Value))
  | attribute (data : Value) (attributes : List (Value × Value))
  | set (items : List Value)
  | double (bits : UInt64)
  | boolean (b : Bool)
  | verbatimString (format : VerbatimFormat) (text : String)
  | bigNumber (n : Int)
  | push (kind : PushKind) (data : List Value)
  | serverError (err : ServerError)
deriving Repr

namespace Value

def isPush : Value → Bool
  | push _ _ => true
  | _ => false

def isServerError : Value → Bool
  | serverError _ => true
  | _ => false

def serverError? : Value → Option ServerError
  | serverError err => some err
  | _ => none

def isNonReplyPush : Value → Bool
  | push kind _ => !kind.hasReply
  | _ => false

theorem isServerError_iff {v : Value} : v.isServerError = true ↔ ∃ err, v = serverError err := by
  cases v <;> simp [isServerError]

theorem isPush_iff {v : Value} : v.isPush = true ↔ ∃ kind data, v = push kind data := by
  cases v <;> simp [isPush]

theorem isPush_okay : okay.isPush = false := rfl

end Value

structure PushInfo where
  kind : PushKind
  data : List Value

def PushInfo.disconnect : PushInfo := ⟨.disconnection, []⟩

end RedisRs

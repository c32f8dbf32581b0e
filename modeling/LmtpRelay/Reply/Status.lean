/-
Reply codes. A code is a three-digit number whose first digit tells success from failure; the codes that the relay
itself gives have names. Codes are ordered by number, except that a code without a name comes after all named ones.
-/

namespace LmtpRelay

structure Status where
  /-- the number sent at the start of a reply -/
  code : Nat
  deriving DecidableEq, Repr

namespace Status

def helpMessage : Status := ⟨214⟩
def serviceReady : Status := ⟨220⟩
def goodbye : Status := ⟨221⟩
def done : Status := ⟨250⟩
def cannotVerify : Status := ⟨252⟩
def startMailInput : Status := ⟨354⟩
def unavailable : Status := ⟨421⟩
def mailboxBusy : Status := ⟨450⟩
def actionUnavailable : Status := ⟨451⟩
def insufficientStorage : Status := ⟨452⟩
def syntaxError : Status := ⟨500⟩
def parameterError : Status := ⟨501⟩
def notImplemented : Status := ⟨502⟩
def badSequence : Status := ⟨503⟩
def refused : Status := ⟨550⟩
def exceededStorage : Status := ⟨552⟩
def mailboxNameNotAllowed : Status := ⟨553⟩
def transactionFailed : Status := ⟨554⟩

/-- the codes that have a name, in increasing order -/
def named : List Status :=
  [helpMessage, serviceReady, goodbye, done, cannotVerify, startMailInput, unavailable, mailboxBusy,
    actionUnavailable, insufficientStorage, syntaxError, parameterError, notImplemented, badSequence, refused,
    exceededStorage, mailboxNameNotAllowed, transactionFailed]

def isNamed (s : Status) : Bool := named.contains s

def text (s : Status) : String := toString s.code

def isPermanent (s : Status) : Bool := 500 ≤ s.code

def isTemporary (s : Status) : Bool := 400 ≤ s.code && s.code < 500

/-- neither kind of rejection: done, or more input is wanted -/
def isSuccess (s : Status) : Bool := 200 ≤ s.code && s.code < 400

/-- named codes by number, and every other code after them, again by number -/
def order (a b : Status) : Ordering :=
  match a.isNamed, b.isNamed with
  | true, false => .lt
  | false, true => .gt
  | _, _ => compare a.code b.code

end Status
end LmtpRelay

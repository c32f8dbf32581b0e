/-
Reading a configuration. The entries of a file are taken in the order in which they were written, and the first that
cannot be taken is reported; only then are fields that were not given looked for. The settings for times may be given as
a table, whose unknown entries are passed over, or as an array with the settings in order.
-/
import LmtpRelay.Config.Basic
import LmtpRelay.Toml.Document

namespace LmtpRelay

open Toml

namespace ConfigReader

/-! ## Values -/

def text : Value → Except ConfigFault String
  | .text s => .ok s
  | _ => .error .malformed

/-- a number that is not negative -/
def number : Value → Except ConfigFault Nat
  | .integer (.ofNat n) => .ok n
  | _ => .error .malformed

def listen (v : Value) : Except ConfigFault ListenAddress := do
  let s ← text v
  match ListenAddress.parse? s with
  | some address => .ok address
  | none => .error (.listen s)

/-! ## Settings in tables and arrays -/

/-- a way to take a value into a record, by the name of its field -/
abbrev Field (α : Type) := String × (Value → α → Except ConfigFault α)

/-- take entries in order; those without a field are passed over -/
def takeEntries {α : Type} (fields : List (Field α)) (entries : List (String × Value)) (start : α) :
    Except ConfigFault α :=
  entries.foldlM (fun a (key, v) => match fields.lookup key with
    | some take => take v a
    | none => .ok a) start

/-- take items for the fields in order; items without a field are passed over -/
def takeItems {α : Type} (fields : List (Field α)) (items : List Value) (start : α) : Except ConfigFault α :=
  (fields.zip items).foldlM (fun a (field, v) => field.2 v a) start

/-- a record of settings, each of which may be left out -/
def record {α : Type} (fields : List (Field α)) (standard : α) : Value → Except ConfigFault α
  | .table entries => takeEntries fields entries standard
  | .array items => takeItems fields items standard
  | .moment _ => .ok standard
  | _ => .error .malformed

def serverFields : List (Field ServerTimeouts) :=
  [("command_secs", fun v t => return { t with commandSecs := ← number v }),
    ("data_secs", fun v t => return { t with dataSecs := ← number v }),
    ("connection_secs", fun v t => return { t with connectionSecs := ← number v })]

def clientFields : List (Field ClientTimeouts) :=
  [("connect_secs", fun v t => return { t with connectSecs := ← number v }),
    ("command_secs", fun v t => return { t with commandSecs := ← number v }),
    ("data_secs", fun v t => return { t with dataSecs := ← number v })]

def timeoutFields : List (Field Timeouts) :=
  [("server", fun v t => return { t with server := ← record serverFields .standard v }),
    ("client", fun v t => return { t with client := ← record clientFields .standard v }),
    ("status_wait_secs", fun v t => return { t with statusWaitSecs := ← number v })]

/-- the key under which a date or a time that stands for a table is found -/
def momentKey : String := "$__toml_private_datetime"

def texts : Value → Except ConfigFault (List (String × String))
  | .table entries => entries.mapM fun (key, v) => return (key, ← text v)
  | .moment written => .ok [(momentKey, written)]
  | _ => .error .malformed

/-! ## The configuration -/

/-- what has been taken so far -/
structure Draft where
  listen : Option ListenAddress
  forward : Option String
  hostname : String
  maxMessageSize : Nat
  timeouts : Timeouts
  recipients : List (String × String)

def Draft.standard : Draft := ⟨none, none, "localhost", 10 * 1024 * 1024, .standard, []⟩

def Draft.add (d : Draft) (entry : String × Value) : Except ConfigFault Draft :=
  let (key, v) := entry
  match key with
  | "listen" => return { d with listen := some (← ConfigReader.listen v) }
  | "forward" => return { d with forward := some (← text v) }
  | "hostname" => return { d with hostname := ← text v }
  | "max_message_size" => return { d with maxMessageSize := ← number v }
  | "timeouts" => return { d with timeouts := ← record timeoutFields .standard v }
  | "recipients" => return { d with recipients := ← texts v }
  | _ => .error (.unknownField key)

/-- the configuration, if no field is missing -/
def Draft.finish (d : Draft) : Except ConfigFault Config :=
  match d.listen, d.forward with
  | none, _ => .error (.missingField "listen")
  | some _, none => .error (.missingField "forward")
  | some listen, some forward => .ok ⟨listen, forward, d.hostname, d.maxMessageSize, d.timeouts, d.recipients⟩

/-- the configuration that a text spells, acceptable or not -/
def ofText (s : String) : Except ConfigFault Config :=
  match Toml.parse? s with
  | none => .error .malformed
  | some entries => do (← entries.foldlM Draft.add .standard).finish

end ConfigReader

/-- the configuration in a file with the given text -/
def Config.parse (path text : String) : Except ConfigError Config := do
  let config ← (ConfigReader.ofText text).mapError (ConfigError.parse path)
  match config.fault? with
  | some fault => .error (.invalid fault.message)
  | none => .ok config

end LmtpRelay

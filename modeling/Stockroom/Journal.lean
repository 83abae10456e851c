namespace Stockroom

inductive Journal.Level where
  | unset
  | debug
  | info
  | warning
  | error
  | critical
  deriving DecidableEq, Repr

inductive Journal.Writer where
  | stock
  | assortment
  | orders
  | expiry
  | attempts
  | snapshots
  | desk
  deriving DecidableEq, Repr

structure Journal.Entry where
  writer : Journal.Writer
  level : Journal.Level
  message : String
  deriving DecidableEq, Repr

namespace Journal

def Level.name : Level → String
  | .unset => "NOTSET"
  | .debug => "DEBUG"
  | .info => "INFO"
  | .warning => "WARNING"
  | .error => "ERROR"
  | .critical => "CRITICAL"

def Level.ofName? (s : String) : Option Level :=
  if s = "WARN" then some .warning
  else if s = "FATAL" then some .critical
  else [Level.unset, .debug, .info, .warning, .error, .critical].find? (·.name = s)

def Writer.name : Writer → String
  | .stock => "grocery.ledger"
  | .assortment => "grocery.catalog"
  | .orders => "grocery.commands"
  | .expiry => "grocery.sweeper"
  | .attempts => "grocery.retry"
  | .snapshots => "grocery.cache"
  | .desk => "grocery.main"

/-- Where the entries go: the least level that is kept for all writers, and for two chatty
ones, each entry being printed once. -/
structure Setup where
  level : Level
  statements : Level
  tasks : Level
  printers : Nat
  deriving DecidableEq, Repr

def Setup.ofLevel (level : Level) : Setup := ⟨level, .warning, .warning, 1⟩

def Setup.choose : Setup → List String → Except String Setup
  | s, [] => .ok s
  | _, word :: rest =>
    match Level.ofName? word with
    | some level => choose (ofLevel level) rest
    | none => .error word

def Setup.initial : Setup := ⟨.warning, .unset, .unset, 0⟩

def shown (name : String) (level : Level) (message : String) : String :=
  name ++ " - " ++ level.name ++ " - " ++ message

end Journal
end Stockroom

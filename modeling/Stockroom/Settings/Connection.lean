import Stockroom.Settings.Environment

namespace Stockroom
namespace Settings

inductive LockWait where
  | seconds (x : Binary64)
  | serverMillis (text : String)
  | untold
  deriving DecidableEq, Repr

structure Connection where
  backend : String
  driver : String
  lockWait : LockWait
  echo : Bool
  deriving DecidableEq, Repr

namespace Connection

def usualDrivers : List (String × String) :=
  [("sqlite", "pysqlite"), ("postgresql", "psycopg"), ("mysql", "mysqldb"),
    ("mariadb", "mysqldb"), ("oracle", "oracledb"), ("mssql", "pyodbc")]

def isNameChar (c : Char) : Bool := c.isAlphanum || c = '_' || c = '+' || 128 ≤ c.toNat

def splitAddress? (url : String) : Option (List Char × List Char) :=
  let name := url.toList.takeWhile isNameChar
  match url.toList.dropWhile isNameChar with
  | ':' :: '/' :: '/' :: rest => if name = [] then none else some (name, rest)
  | _ => none

def dropUser (cs : List Char) : List Char :=
  let user := cs.takeWhile fun c => c ≠ ':' && c ≠ '/'
  let rest := cs.drop user.length
  let behindName :=
    if user.contains '@' then (user.reverse.takeWhile (· ≠ '@')).reverse ++ rest else cs
  match rest with
  | ':' :: word =>
    match word.dropWhile (· ≠ '@') with
    | _ :: host => host
    | [] => behindName
  | _ => behindName

def socketText (cs : List Char) : List Char :=
  let behindHost := match dropUser cs with
    | '[' :: rest => (rest.dropWhile (· ≠ ']')).drop 1
    | rest => rest.dropWhile fun c => c ≠ '/' && c ≠ ':' && c ≠ '?'
  match behindHost with
  | ':' :: number => number.takeWhile fun c => c ≠ '/' && c ≠ '?'
  | _ => []

def namePieces (name : List Char) : List String :=
  (name.splitOn '+').map String.ofList

def ofSettings (s : Store) : Except Fault Connection := do
  match splitAddress? s.url with
  | none => .error .badAddress
  | some (name, rest) =>
    let socket := String.ofList (socketText rest)
    if socket ≠ "" then
      let _ ← (Text.wholeNumber? socket).mapError (Environment.wholeFault socket)
    let backend := (namePieces name).headD ""
    let driver ← match (namePieces name)[1]? with
      | some d => .ok d
      | none => match usualDrivers.lookup backend with
        | some d => .ok d
        | none => .error .badAddress
    let lockWait ←
      if backend = "sqlite" then
        let wait := Binary64.ofRatio false s.lockTimeoutMs.1 1000
        if wait.isFinite then .ok (.seconds wait)
        else .error (.outOfRange "integer division result too large for a float")
      else if driver = "asyncpg" then .ok (.serverMillis (toString s.lockTimeoutMs.1))
      else .ok .untold
    return ⟨backend, driver, lockWait, s.echo⟩

end Connection
end Settings
end Stockroom

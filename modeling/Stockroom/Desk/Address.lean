import Stockroom.Text.Percent

namespace Stockroom
namespace Desk

structure Address where
  path : List Char
  query : List Char
  deriving DecidableEq, Repr

namespace Address

def withoutHost (cs : List Char) : List Char :=
  '/' :: (if ['/', '/'].isPrefixOf cs then (cs.drop 2).dropWhile (· ≠ '/') else cs).dropWhile
    (· = '/')

/-- The parts of a path after one more; two dots take back a part, but never the root. -/
def enter (parts : List (List Char)) (part : List Char) : List (List Char) :=
  if part = ['.'] then parts
  else if part = ['.', '.'] then
    if parts = [[]] then parts else parts.dropLast
  else parts ++ [part]

def withoutDots (cs : List Char) : List Char :=
  let path := ['/'].intercalate ((cs.splitOn '/').foldl enter [])
  if path = [] then ['/'] else path

def ofTarget (target : String) : Address :=
  let cs := target.toList.takeWhile (· ≠ '#')
  ⟨Text.percentDecoded (withoutDots (withoutHost (cs.takeWhile (· ≠ '?')))),
    (cs.dropWhile (· ≠ '?')).drop 1⟩

def queryText (cs : List Char) : String :=
  String.ofList (Text.percentDecoded (cs.map fun c => if c = '+' then ' ' else c))

def parameters (a : Address) : List (String × String) :=
  ((a.query.splitOn '&').filter (· ≠ [])).map fun cs =>
    (queryText (cs.takeWhile (· ≠ '=')), queryText ((cs.dropWhile (· ≠ '=')).drop 1))

def parameter? (a : Address) (name : String) : Option String :=
  (a.parameters.reverse.find? (·.1 = name)).map (·.2)

def trimmedPath (a : Address) : List Char := (a.path.reverse.dropWhile (· = '/')).reverse

def isPlainInLocation (c : Char) : Bool :=
  Text.isUnreserved c || ":/%#?=@[]!$&'()*+,;".toList.contains c

def locationOf (a : Address) (path : List Char) : String :=
  let query := if a.query = [] then [] else '?' :: Text.percentCompleted a.query
  String.ofList ((Text.percentEncoded isPlainInLocation (path ++ query)).takeWhile (· ≠ '#'))

end Address
end Desk
end Stockroom

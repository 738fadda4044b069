import DonationFlow.Http
import DonationFlow.Text.Cut
import DonationFlow.Text.Hex

/-!
# What a URL asks of its host

A request names the path and the query of its URL.  Steps of the path that stay
or go up are carried out first, and a character that may not stand in a URL is
written as the bytes it takes.
-/

namespace DonationFlow.Http

/-- The bytes of a character, each behind a percent sign. -/
def percent (c : Char) : List Char :=
  (String.singleton c).toUTF8.toList.flatMap fun byte =>
    '%' :: (Text.hexByte byte).map Char.toUpper

/-- The character as it stands in a URL, where those of `barred` may not. -/
def escaped (barred : List Char) (c : Char) : List Char :=
  if 32 < c.toNat ∧ c.toNat < 127 ∧ c ∉ barred then [c] else percent c

def inPath : Char → List Char := escaped ['"', '<', '>', '`', '\x7b', '\x7d']

def inQuery : Char → List Char := escaped ['"', '<', '>', '\'']

/-- The number of dots that a step consists of, if of nothing else. -/
def dots? : List Char → Option Nat
  | [] => some 0
  | '.' :: rest => (dots? rest).map (· + 1)
  | '%' :: '2' :: 'e' :: rest | '%' :: '2' :: 'E' :: rest => (dots? rest).map (· + 1)
  | _ => none

/-- Whether a step names a drive, as in `C:`. -/
def isDrive : List Char → Bool
  | [letter, mark] => letter.isAlpha && (mark = ':' || mark = '|')
  | _ => false

/-- The steps left when the latest one is gone back.  There is no way up from a
drive. -/
def goUp (taken : List (List Char)) : List (List Char) :=
  if taken.head?.any isDrive then taken else taken.tail

/-- The steps taken so far, the latest first, and one more. -/
def walk (taken : List (List Char)) (step : List Char) : List (List Char) :=
  match dots? step with
  | some 1 => taken
  | some 2 => goUp taken
  | _ => step :: taken

/-- The steps of a path, the latest first.  One that stays or goes up at the
end leads to a place without a name. -/
def walked (taken : List (List Char)) : List (List Char) → List (List Char)
  | [] => taken
  | [last] =>
    match dots? last with
    | some 1 | some 2 => [] :: walk taken last
    | _ => walk taken last
  | step :: rest => walked (walk taken step) rest

def pathOf (text : List Char) : List Char :=
  let slashed := text.map fun c => if c = '\\' then '/' else c
  let steps := walked [] (Text.pieces '/' slashed).tail
  if steps.isEmpty then ['/'] else steps.reverse.flatMap fun step => '/' :: step.flatMap inPath

/-- Line ends and tabs do not count. -/
def counts (c : Char) : Bool := c ≠ '\t' && c ≠ '\n' && c ≠ '\r'

/-- The path and query in what a URL says after its host. -/
def asked (text : List Char) : List Char :=
  let shown := (text.filter counts).takeWhile (· ≠ '#')
  let query := shown.dropWhile (· ≠ '?')
  pathOf (shown.takeWhile (· ≠ '?')) ++ query.flatMap inQuery

def namesHost (c : Char) : Bool := c ≠ '/' && c ≠ '\\' && c ≠ '?' && c ≠ '#'

/-- What a URL says after its host, which stands behind two slashes. -/
def afterHost : List Char → List Char
  | '/' :: '/' :: rest => rest.dropWhile namesHost
  | _ :: rest => afterHost rest
  | [] => []

/-- The path and query that the host is asked for. -/
def Post.target (post : Post) : String := String.ofList (asked (afterHost post.url.toList))

end DonationFlow.Http

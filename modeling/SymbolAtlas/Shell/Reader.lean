import SymbolAtlas.Shell.Reader.Command

namespace SymbolAtlas.Shell

open Reader

/-- The statements up to the end of the line. -/
def lineStatements (fuel : Nat) : Nat → Reader (List Statement)
  | 0 => refuse none
  | count + 1 => do
    skipBlanks
    expandAliases false true
    match (← get).rest with
    | [] => return []
    | '\n' :: _ => skip 1; return []
    | _ =>
      let list ← chained fuel .always
      skipBlanks
      match (← get).rest with
      | [] => return list
      | '\n' :: _ => skip 1; return list
      | ';' :: ';' :: _ => refuse none
      | ';' :: _ => skip 1; return list ++ (← lineStatements fuel count)
      | '&' :: _ => skip 1; return statements.ended false list ++ (← lineStatements fuel count)
      | _ => refuse none

/-- What is wrong where a word has been refused: what is wrong inside the word if anything is. A word
that is refused inside stands in less text, so `bound` is some count of characters. -/
def SyntaxFault.insideWord (fault : SyntaxFault) (fuel : Nat) : Nat → SyntaxFault
  | 0 => fault
  | bound + 1 =>
    match fault.word with
    | none => fault
    | some c =>
      match (pieces (statements fuel false) fuel false []).run c with
      | .ok (_, after) => { fault with line := after.line, word := none }
      | .error inner => inner.insideWord fuel bound

/-- Reads the next line with commands, nothing at the end of the script. Each reader goes past a
character within a few calls, so the length of the text bounds the calls. -/
def nextLine (c : Cursor) : Except SyntaxFault (Option (List Statement × Cursor)) := do
  let c := c.skipBlanks true
  if c.rest.isEmpty then return none
  let aliased := (c.aliases.map (·.2.length)).foldl Nat.add 0
  let bound := 20 * (c.rest.length + aliased * (c.rest.length + aliased)) + 50
  match (lineStatements bound bound).run c with
  | .ok result => .ok (some result)
  | .error fault => .error (fault.insideWord bound c.rest.length)

/-- The pieces of a text that is quoted from its front to its end. -/
def quotedText (text : List Char) : Except SyntaxFault Word :=
  let bound := 20 * text.length + 50
  Prod.fst <$> (quotedPieces (statements bound false) bound none []).run { rest := text }

end SymbolAtlas.Shell

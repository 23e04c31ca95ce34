import Charter.Proofs.ConstraintBlock

/-!
The two forms of a constraint. One on a single line and one in a block say the same where the line does not leave it
open whether a word is the severity or a name: the reader looks at one token behind the word and no further.
-/

namespace Charter.Source
open Charter.Source.Parser Charter.Source.Grammar

variable {limit : Nat} {name : String} {severity : Option Enforcement} {message : Option String} {e : Expression}
  {text : List Symbol} {texts : List (List Symbol)} {tokens rest : List Token} {token second next : Token}

-- What the reader of a line takes for its end.
def lineEnd : List Symbol := [⟨.newline, "\n"⟩, ⟨.endOfInput, ""⟩]

end Charter.Source

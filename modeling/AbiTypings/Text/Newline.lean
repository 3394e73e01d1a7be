/-!
# Line ends

A file may end its lines with a line feed, a carriage return or both. Reading turns each of the
three into one line feed.
-/

namespace AbiTypings.Text

/-- `done` holds the characters before `cs`, last one first. -/
def unifyNewlinesOnto (done : List Char) : List Char → List Char
  | [] => done.reverse
  | '\r' :: '\n' :: cs => unifyNewlinesOnto ('\n' :: done) cs
  | '\r' :: cs => unifyNewlinesOnto ('\n' :: done) cs
  | c :: cs => unifyNewlinesOnto (c :: done) cs

def unifyNewlines (cs : List Char) : List Char := unifyNewlinesOnto [] cs

end AbiTypings.Text

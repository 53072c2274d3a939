import Inlay.Text.Basic

/-!
# Line ends

A text read from a file has one kind of line end, the line feed: a carriage return, together with
the line feed after it if there is one, is read as a line feed.
-/

namespace Inlay.Text

/-- Adds a text with its line ends made one kind to `done`, which is given from its end. -/
def unifyNewlinesOnto (done : Text) : Text → Text
  | [] => done.reverse
  | '\r' :: '\n' :: t => unifyNewlinesOnto ('\n' :: done) t
  | '\r' :: t => unifyNewlinesOnto ('\n' :: done) t
  | c :: t => unifyNewlinesOnto (c :: done) t

/-- A text with every line end made a line feed. -/
def unifyNewlines (t : Text) : Text :=
  unifyNewlinesOnto [] t

end Inlay.Text

import FormGuard.Proofs.Script.Literal
import FormGuard.Script.Block

/-! The browser: what a page reports when the blocks of a script run one after the other. -/
namespace FormGuard.Script

/-- The keys that are flagged, each with the message that came with it. -/
abbrev Page := List (String × String)

def Page.isFlagged (page : Page) (key : String) : Bool := page.any fun entry => entry.1 == key

namespace Block

/-- The message of a block as the browser reads its literal. -/
def shown? (b : Block) : Option String :=
  match readLiteral (b.message.toList ++ ['\'']) with
  | some (text, []) => some (String.ofList text)
  | _ => none

/-- A block whose test holds flags its key and reports its message, unless the key is flagged. -/
def fire (holds : Block → Bool) (page : Page) (b : Block) : Option Page := do
  let message ← b.shown?
  return if holds b && !page.isFlagged b.key then page ++ [(b.key, message)] else page

theorem fire_of_escaped {b : Block} {text : String} (h : b.message = escape text)
    (holds : Block → Bool) (page : Page) :
    b.fire holds page =
      some (if holds b && !page.isFlagged b.key then page ++ [(b.key, text)] else page) := by
  have hs : b.shown? = some text := by
    rw [shown?, h, readLiteral_escape]
    simp
  rw [fire, hs]
  rfl

end Block

/-- What the blocks of a script report; one literal that cannot be read spoils the whole script. No key
is flagged at the start. The array that the script keeps its flags in is not as empty: it has inherited
members, such as `filter`, `sort`, `find` or `keys`, and a key of that name counts as flagged there. -/
def run (holds : Block → Bool) (blocks : List Block) : Option Page :=
  blocks.foldlM (Block.fire holds) []

end FormGuard.Script

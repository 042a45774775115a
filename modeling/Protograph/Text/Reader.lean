/-! # Readers — taking a text from the front

    A reader takes some of what is left and answers with a value, or fails.
    What is left is a stream of any sort together with the number of its
    items; the number is what bounds repetition, so reading always ends. -/

namespace Protograph

/-- What is left of a stream, and how many items that is. -/
structure Cursor (σ : Type) where
  rest : σ
  left : Nat

/-- A reader of a stream `σ` that fails with an `ε`. -/
def Reader (σ ε α : Type) := Cursor σ → Except ε (α × Cursor σ)

namespace Reader

variable {σ ε α β : Type}

instance : Monad (Reader σ ε) where
  pure a := fun c => .ok (a, c)
  bind r f := fun c =>
    match r c with
    | .error e => .error e
    | .ok (a, c') => f a c'

/-- Fail. -/
def fail (e : ε) : Reader σ ε α := fun _ => .error e

/-- Look at what is left and take nothing. -/
def look (f : σ → α) : Reader σ ε α := fun c => .ok (f c.rest, c)

/-- Go on with a shorter rest, behind so many items. -/
def moveTo (rest : σ) (taken : Nat) : Reader σ ε Unit :=
  fun c => .ok ((), ⟨rest, c.left - taken⟩)

/-- Read items as long as what is left satisfies `more`.  Every item takes
    something; should one take nothing, it is the last. -/
def many (more : σ → Bool) (item : Reader σ ε α) (c : Cursor σ) :
    Except ε (List α × Cursor σ) :=
  if more c.rest then
    match item c with
    | .error e => .error e
    | .ok (a, c') =>
        if c'.left < c.left then
          match many more item c' with
          | .error e => .error e
          | .ok (as, c'') => .ok (a :: as, c'')
        else .ok ([a], c')
  else .ok ([], c)
termination_by c.left

end Reader

end Protograph

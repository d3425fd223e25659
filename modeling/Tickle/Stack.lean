import Tickle.Error

/-!
The stack on which recursive procedures stand. Expressions are read and evaluated in any monad that
counts calls. In `Except Error` there is always room for another one. In `Stacked` so many frames
are free, and a call that finds too few of them ends everything, without a result and without an
error of the script. Only calls that can lead to further ones are counted.
-/

namespace Tickle

class CallStack (m : Type → Type) where
  /-- Carries out a body that is so many calls down. -/
  enter {α : Type} (calls : Nat) (body : m α) : m α

export CallStack (enter)

/-- Fails with an error of the script. -/
def raise {m : Type → Type} [MonadLiftT (Except Error) m] {α : Type} (e : Error) : m α :=
  liftM (Except.error e : Except Error α)

instance : CallStack (Except Error) := ⟨fun _ body => body⟩

abbrev Stacked := ReaderT Nat (ExceptT Error Option)

instance : CallStack Stacked :=
  ⟨fun calls body free => if free < calls then ExceptT.mk none else body (free - calls)⟩

/-- What comes of a computation where so many frames are free. -/
def Stacked.within {α : Type} (x : Stacked α) (frames : Nat) : Option (Except Error α) :=
  (x frames).run

end Tickle

import Tickle.Stack

/-! # Depth of the stack

A computation needs a certain number of frames. On a smaller stack nothing comes of it; on any
other it ends as if there were always room for a call. -/

namespace Tickle

theorem Stacked.within_bind {α β : Type} (x : Stacked α) (f : α → Stacked β) (frames : Nat) :
    (x >>= f).within frames = (x.within frames).bind fun
      | .ok a => (f a).within frames
      | .error e => some (.error e) := by
  show (x.within frames).bind (ExceptT.bindCont fun a => f a frames) = _
  congr 1
  funext r
  cases r <;> rfl

/-- The computation needs just so many frames, and where they are free it ends like `r`. -/
def EndsAt {α : Type} (depth : Nat) (x : Stacked α) (r : Except Error α) : Prop :=
  ∀ frames, x.within frames = if frames < depth then none else some r

/-- So many frames are enough, and where enough are free the computation ends like `r`. -/
def EndsWithin {α : Type} (most : Nat) (x : Stacked α) (r : Except Error α) : Prop :=
  ∃ depth ≤ most, EndsAt depth x r

section

variable {α β : Type} {depth further most : Nat} {x y : Stacked α} {f : α → Stacked β}
  {r s : Except Error α}

namespace EndsAt

theorem lift (r : Except Error α) : EndsAt 0 (liftM r) r := fun _ => rfl

theorem enter (h : EndsAt depth x r) (calls : Nat) :
    EndsAt (calls + depth) (enter calls x) r := by
  intro frames
  show (if frames < calls then none else x.within (frames - calls)) = _
  by_cases hcalls : frames < calls
  · rw [if_pos hcalls, if_pos (by omega)]
  · rw [if_neg hcalls, h]
    split <;> split <;> first | rfl | omega

theorem bind_error {e : Error} (h : EndsAt depth x (.error e)) (f : α → Stacked β) :
    EndsAt depth (x >>= f) (.error e) := by
  intro frames
  rw [Stacked.within_bind, h]
  split <;> rfl

theorem bind {a : α} {r : Except Error β} (h : EndsAt depth x (.ok a))
    (hf : EndsAt further (f a) r) : EndsAt (max depth further) (x >>= f) r := by
  intro frames
  rw [Stacked.within_bind, h]
  by_cases hframes : frames < depth
  · rw [if_pos hframes, if_pos (by omega)]
    rfl
  · rw [if_neg hframes]
    show (f a).within frames = if frames < max depth further then none else some r
    rw [hf]
    split <;> split <;> first | rfl | omega

end EndsAt

namespace EndsWithin

theorem mono {more : Nat} (h : EndsWithin most x r) (hmore : most ≤ more) :
    EndsWithin more x r := by
  obtain ⟨depth, hdepth, hx⟩ := h
  exact ⟨depth, Nat.le_trans hdepth hmore, hx⟩

theorem lift (r : Except Error α) : EndsWithin most (liftM r) r := ⟨0, Nat.zero_le most, .lift r⟩

theorem enter {more calls : Nat} (h : EndsWithin most x r) (hmore : calls + most ≤ more) :
    EndsWithin more (enter calls x) r := by
  obtain ⟨depth, hdepth, hx⟩ := h
  exact ⟨calls + depth, by omega, hx.enter calls⟩

theorem bind {g : α → Except Error β} (h : EndsWithin most x r)
    (hf : ∀ a, r = .ok a → EndsWithin most (f a) (g a)) :
    EndsWithin most (x >>= f) (r >>= g) := by
  obtain ⟨depth, hdepth, hx⟩ := h
  cases r with
  | error e => exact ⟨depth, hdepth, hx.bind_error f⟩
  | ok a =>
    obtain ⟨further, hfurther, hfa⟩ := hf a rfl
    exact ⟨max depth further, by omega, hx.bind hfa⟩

theorem ite {c : Prop} [Decidable c] (hx : c → EndsWithin most x r)
    (hy : ¬c → EndsWithin most y s) :
    EndsWithin most (if c then x else y) (if c then r else s) := by
  split
  · next hc => exact hx hc
  · next hc => exact hy hc

end EndsWithin

end

end Tickle

import Mathlib.Data.BitVec

/-!
# Writing some bits of a register

A register of a state is read, bits of it are set and cleared under constant masks, and it is written
back. Two states agree on the bits written afterwards, and on the others exactly as far as they did
before.
-/

namespace BitMask

variable {width : Nat} {mask mask' x y z : BitVec width}

def Agree (mask x y : BitVec width) : Prop := x &&& mask = y &&& mask

instance : Decidable (Agree mask x y) := inferInstanceAs (Decidable (_ = _))

theorem agree_iff : Agree mask x y ↔
    ∀ bit < width, mask.getLsbD bit = true → x.getLsbD bit = y.getLsbD bit := by
  constructor
  · intro hagree bit _ hmask
    have hbit := congrArg (fun word => word.getLsbD bit) hagree
    simpa only [BitVec.getLsbD_and, hmask, Bool.and_true] using hbit
  · intro hbits
    apply BitVec.eq_of_getLsbD_eq
    intro bit hbit
    simp only [BitVec.getLsbD_and]
    cases hmask : mask.getLsbD bit with
    | false => rw [Bool.and_false, Bool.and_false]
    | true => rw [hbits bit hbit hmask]

theorem getLsbD_not_mask {bit : Nat} (hbit : bit < width) (hclear : mask.getLsbD bit = false) :
    (~~~mask).getLsbD bit = true := by
  rw [BitVec.getLsbD_not, hclear, decide_eq_true hbit]
  rfl

theorem agree_zero : Agree (BitVec.ofNat width 0) x y :=
  (BitVec.and_zero).trans (BitVec.and_zero).symm

theorem Agree.symm (hagree : Agree mask x y) : Agree mask y x :=
  Eq.symm hagree

theorem Agree.trans (hxy : Agree mask x y) (hyz : Agree mask y z) : Agree mask x z :=
  Eq.trans hxy hyz

theorem Agree.mono (hsubset : mask' &&& mask = mask') (hagree : Agree mask x y) :
    Agree mask' x y := by
  rw [agree_iff] at hagree ⊢
  intro bit hbit hmask'
  have hmask : mask.getLsbD bit = true := by
    have hboth := congrArg (fun word => word.getLsbD bit) hsubset
    simpa only [BitVec.getLsbD_and, hmask', Bool.true_and] using hboth
  exact hagree bit hbit hmask

/-- `write` gives the bits of the mask a value that does not depend on the state, and keeps the
others. -/
structure Writes {State : Type*} (read : State → BitVec width) (mask : BitVec width)
    (write : State → State) : Prop where
  inside : ∀ state state', Agree mask (read (write state)) (read (write state'))
  outside : ∀ state, Agree (~~~mask) (read (write state)) (read state)

namespace Writes

variable {State : Type*} {read : State → BitVec width} {write write' : State → State}

theorem set (mask : BitVec width) : Writes id mask (fun word => word ||| mask) where
  inside x y := by
    rw [agree_iff]
    intro bit _ hmask
    simp only [id, BitVec.getLsbD_or, hmask, Bool.or_true]
  outside x := by
    rw [agree_iff]
    intro bit hbit hnot
    have hclear : mask.getLsbD bit = false := by simpa [hbit] using hnot
    rw [id, id, BitVec.getLsbD_or, hclear, Bool.or_false]

theorem clear (mask : BitVec width) : Writes id mask (fun word => word &&& ~~~mask) where
  inside x y := by
    rw [agree_iff]
    intro bit _ hmask
    simp only [id, BitVec.getLsbD_and, BitVec.getLsbD_not, hmask, Bool.not_true, Bool.and_false]
  outside x := by
    rw [agree_iff]
    intro bit hbit hnot
    rw [id, id, BitVec.getLsbD_and, hnot, Bool.and_true]

theorem keep : Writes read (BitVec.ofNat width 0) id where
  inside _ _ := agree_zero
  outside _ := rfl

theorem of_word {change : BitVec width → BitVec width} (hwrites : Writes id mask change)
    (hread : ∀ state, read (write state) = change (read state)) : Writes read mask write where
  inside state state' := by
    rw [hread, hread]
    exact hwrites.inside (read state) (read state')
  outside state := by
    rw [hread]
    exact hwrites.outside (read state)

theorem congr (hwrites : Writes read mask write)
    (hread : ∀ state, read (write' state) = read (write state)) : Writes read mask write' where
  inside state state' := by
    rw [hread, hread]
    exact hwrites.inside state state'
  outside state := by
    rw [hread]
    exact hwrites.outside state

-- on the bits of the second mask the second write decides, on the others it lets the first through
theorem comp (hfirst : Writes read mask write) (hsecond : Writes read mask' write') :
    Writes read (mask ||| mask') (fun state => write' (write state)) where
  inside state state' := by
    have hinside := agree_iff.mp (hsecond.inside (write state) (write state'))
    have hfirst' := agree_iff.mp (hfirst.inside state state')
    have houtside := agree_iff.mp (hsecond.outside (write state))
    have houtside' := agree_iff.mp (hsecond.outside (write state'))
    rw [agree_iff]
    intro bit hbit hmask
    cases hmask' : mask'.getLsbD bit with
    | true => exact hinside bit hbit hmask'
    | false =>
        have hleft : mask.getLsbD bit = true := by simpa [hmask'] using hmask
        have hnot := getLsbD_not_mask hbit hmask'
        rw [houtside bit hbit hnot, houtside' bit hbit hnot]
        exact hfirst' bit hbit hleft
  outside state := by
    refine (hsecond.outside (write state)).mono ?_ |>.trans ((hfirst.outside state).mono ?_)
    · apply BitVec.eq_of_getLsbD_eq
      intro bit hbit
      simp only [BitVec.getLsbD_and, BitVec.getLsbD_not, BitVec.getLsbD_or]
      cases mask'.getLsbD bit <;> simp [hbit]
    · apply BitVec.eq_of_getLsbD_eq
      intro bit hbit
      simp only [BitVec.getLsbD_and, BitVec.getLsbD_not, BitVec.getLsbD_or]
      cases mask.getLsbD bit <;> simp [hbit]

/-- What two states agree on after the same write. -/
theorem agree_written_iff (hwrites : Writes read mask write) (observed : BitVec width)
    (state state' : State) :
    Agree observed (read (write state)) (read (write state')) ↔
      Agree (observed &&& ~~~mask) (read state) (read state') := by
  have hinside := agree_iff.mp (hwrites.inside state state')
  have houtside := agree_iff.mp (hwrites.outside state)
  have houtside' := agree_iff.mp (hwrites.outside state')
  rw [agree_iff, agree_iff]
  refine forall_congr' fun bit => forall_congr' fun hbit => ?_
  cases hmask : mask.getLsbD bit with
  | true =>
      have hequal := hinside bit hbit hmask
      simp [BitVec.getLsbD_and, hmask, hequal]
  | false =>
      have hnot := getLsbD_not_mask hbit hmask
      rw [houtside bit hbit hnot, houtside' bit hbit hnot, BitVec.getLsbD_and, hnot, Bool.and_true]

end Writes

end BitMask

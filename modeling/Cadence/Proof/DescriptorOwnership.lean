import Cadence.Foundation.Ownership
import Cadence.Foundation.StepSystem
import Cadence.Proof.HeldDescriptors

/-!
# Who releases a descriptor

The objects hold descriptors as places hold tokens. Unless a move or a swap of `File` separates the
`_fd` of a `BufferedFile` from its `_fp`, every operation is one on places, so no descriptor is lost
and none is released twice.
-/

namespace Cadence.DescriptorOwnership

open IoObjects IoWorld StepSystem

/-- The moves and swaps of `File` spare every `BufferedFile` that is open. -/
def SparesBuffered (world : IoWorld) : Action → Prop
  | .moveFile _ other => world.objects.Movable other
  | .moveFiles _ inFile outFile => world.objects.Movable inFile ∧ world.objects.Movable outFile
  | .swapFile lhs rhs => world.objects.Swappable lhs rhs
  | _ => True

instance (world : IoWorld) : ∀ action, Decidable (SparesBuffered world action)
  | .moveFile _ _ => inferInstanceAs (Decidable (_ ∨ _))
  | .moveFiles _ _ _ => inferInstanceAs (Decidable ((_ ∨ _) ∧ (_ ∨ _)))
  | .swapFile _ _ => inferInstanceAs (Decidable (_ ∧ _ ∨ _))
  | .adoptFile .. | .adoptSerial .. | .adoptDuplex .. | .adoptSharedMemory .. | .adoptBufferedFile ..
  | .moveSerial .. | .moveDuplex .. | .moveSharedMemory .. | .swapDuplex .. | .swapSharedMemory ..
  | .swapBufferedFile .. | .closeFile .. | .closeDuplex .. | .closeSharedMemory ..
  | .destroy .. => isTrue trivial

/-- Every descriptor is released at most once, and exactly once when all objects are destroyed. No
open object has one that is released. -/
def Accounted (world : IoWorld) : Prop :=
  world.released.Nodup ∧
    (∀ loc object, world.objects loc = some object → object.isOpened = true →
      ∀ fd ∈ object.descriptors, fd ∉ world.released) ∧
    ((∀ loc, world.objects loc = none) → ∀ fd ∈ world.adopted, world.released.count fd = 1)

def view (world : IoWorld) : Ownership Slot PollId :=
  ⟨world.objects.held, world.adopted, world.released⟩

structure Sound (world : IoWorld) : Prop where
  view : (view world).Sound
  consistent : world.objects.All IoObject.Consistent

variable {object : IoObject} {member : Member} {fd : PollId} {objects objects' : IoObjects}
  {world next : IoWorld} {slot other lhs rhs : Slot} {loc : Nat}

/-! ### The operations -/

theorem held_of_none (hnone : objects loc = none) : objects.held (loc, member) = none := by
  simp [IoObjects.held, hnone]

theorem held_put_duplex {in' out : PollId} (hnone : objects loc = none) :
    IoObjects.held (objects.put loc (.duplex in' out)) =
      Function.update (Function.update objects.held (loc, .readEnd) (validFd in')) (loc, .writeEnd)
        (validFd out) := by
  have hput : objects.put loc (.duplex in' out) =
      ObjectStore.put (objects.put loc (.duplex in' InvalidFd)) loc (.duplex in' out) :=
    ObjectStore.put_put.symm
  rw [hput, held_put .writeEnd, held_put_of_none _ .readEnd hnone]
  · rfl
  · intro other hne
    cases other <;> simp_all [IoObject.held]
  · intro other hne
    rw [IoObjects.held, ObjectStore.put_self]
    cases other <;> simp_all [IoObject.held]

theorem moveFrom_eq (hmove : objects.moveFrom slot = some (fd, objects')) :
    objects.getFile slot = some fd ∧ objects' = objects.setFile slot InvalidFd := by
  obtain ⟨old, hfile, heq⟩ := Option.map_eq_some_iff.mp hmove
  obtain ⟨rfl, rfl⟩ := Prod.mk.inj heq
  exact ⟨hfile, rfl⟩

theorem eq_none_of_moveFrom (hmove : objects.moveFrom slot = some (fd, objects'))
    (hnone : objects' loc = none) : objects loc = none ∧ loc ≠ slot.1 := by
  obtain ⟨hfile, rfl⟩ := moveFrom_eq hmove
  obtain ⟨object, hobject, -⟩ := getFile_eq_some hfile
  rw [setFile_eq_put hobject] at hnone
  by_cases heq : loc = slot.1
  · rw [heq, ObjectStore.put_self] at hnone
    cases hnone
  · rw [ObjectStore.put_of_ne heq] at hnone
    exact ⟨hnone, heq⟩

theorem held_moveFrom (hall : objects.All IoObject.Consistent) (hmovable : objects.Movable slot)
    (hmove : objects.moveFrom slot = some (fd, objects')) :
    objects'.held = Function.update objects.held slot none ∧ objects.held slot = validFd fd ∧
      objects'.All IoObject.Consistent := by
  obtain ⟨hfile, rfl⟩ := moveFrom_eq hmove
  have hheld := held_eq_validFd hall hfile
  rcases hmovable with hplain | hclosed
  · refine ⟨?_, hheld, consistent_setFile _ hall hplain⟩
    rw [held_setFile_eq hfile hplain, validFd_invalid]
  -- nothing moves out of a closed file, so a closed `BufferedFile` stays as it is
  · obtain rfl := Option.some.inj (hfile.symm.trans hclosed)
    rw [setFile_unchanged hfile]
    refine ⟨?_, hheld, hall⟩
    rw [validFd_invalid] at hheld
    rw [← hheld, Function.update_eq_self]

theorem Movable.moveFrom (hmovable : objects.Movable other)
    (hmove : objects.moveFrom slot = some (fd, objects')) : objects'.Movable other := by
  obtain ⟨hfile, rfl⟩ := moveFrom_eq hmove
  refine hmovable.imp isBuffered_setFile_eq.trans fun hclosed => ?_
  rw [getFile_setFile_eq hfile]
  split
  · rfl
  · exact hclosed

theorem adopt_eq (hadopt : world.adopt fd = some next) :
    fd ≠ InvalidFd ∧ fd ∉ world.adopted ∧
      next = { world with adopted := world.adopted ++ [fd] } := by
  unfold IoWorld.adopt at hadopt
  split at hadopt
  case isTrue hfresh => exact ⟨hfresh.1, hfresh.2, (Option.some.inj hadopt).symm⟩
  case isFalse => cases hadopt

theorem sound_adopt (hsound : Sound world)
    (hadopt : ((world.adopt fd).bind fun world => world.construct loc object) = some next)
    (hduplex : ∀ in' out, object ≠ .duplex in' out)
    (hobject : fd ≠ InvalidFd → object.held .whole = some fd ∧ object.Consistent) :
    Sound next := by
  obtain ⟨middle, hmiddle, hconstruct⟩ := Option.bind_eq_some_iff.mp hadopt
  obtain ⟨hfd, hfresh, rfl⟩ := adopt_eq hmiddle
  obtain ⟨hnone, rfl⟩ := IoWorld.construct_eq_some hconstruct
  obtain ⟨hheld, hconsistent⟩ := hobject hfd
  refine ⟨?_, hsound.consistent.put hconsistent⟩
  have hput := held_put_of_none object .whole hnone fun other hne =>
    held_of_ne_whole hduplex hne
  rw [hheld] at hput
  have hview := hsound.view.adopt (p := (loc, .whole)) (held_of_none hnone) hfresh
  simpa only [view, Ownership.adopt, hput] using hview

theorem sound_adoptDuplex {inFid outFid : PollId} (hsound : Sound world)
    (hadopt : (((world.adopt inFid).bind fun world => world.adopt outFid).bind fun world =>
      world.construct loc (.duplex inFid outFid)) = some next) : Sound next := by
  obtain ⟨second, hboth, hconstruct⟩ := Option.bind_eq_some_iff.mp hadopt
  obtain ⟨first, hfirst, hsecond⟩ := Option.bind_eq_some_iff.mp hboth
  obtain ⟨hin, hinFresh, rfl⟩ := adopt_eq hfirst
  obtain ⟨hout, houtFresh, rfl⟩ := adopt_eq hsecond
  obtain ⟨hnone, rfl⟩ := IoWorld.construct_eq_some hconstruct
  refine ⟨?_, hsound.consistent.put trivial⟩
  have hview := (hsound.view.adopt (p := (loc, .readEnd)) (held_of_none hnone) hinFresh).adopt
    (p := (loc, .writeEnd)) ?_ houtFresh
  · simpa only [view, Ownership.adopt, held_put_duplex hnone, validFd_eq_some hin,
      validFd_eq_some hout] using hview
  · rw [Ownership.adopt_held_of_ne (by simp)]
    exact held_of_none hnone

theorem sound_moveFile (hsound : Sound world) (hmovable : world.objects.Movable other)
    (hplain : object.isBuffered = false) (hheld : object.held .whole = validFd fd)
    (hduplex : ∀ in' out, object ≠ .duplex in' out)
    (hmove : world.objects.moveFrom other = some (fd, objects'))
    (hconstruct : { world with objects := objects' }.construct loc object = some next) :
    Sound next := by
  obtain ⟨hnone, rfl⟩ := IoWorld.construct_eq_some hconstruct
  obtain ⟨hheld', hfd, hall⟩ := held_moveFrom hsound.consistent hmovable hmove
  refine ⟨?_, hall.put (consistent_of_plain hplain)⟩
  have hput := held_put_of_none object .whole hnone fun other hne =>
    held_of_ne_whole hduplex hne
  have hview := hsound.view.move (p := other) (q := (loc, .whole))
    (held_of_none (eq_none_of_moveFrom hmove hnone).1)
  simpa only [view, Ownership.move, hput, hheld', hfd, hheld] using hview

theorem sound_moveFiles {inFile outFile : Slot} (hsound : Sound world)
    (hin : world.objects.Movable inFile) (hout : world.objects.Movable outFile)
    (hmove : world.moveFiles loc inFile outFile = some next) : Sound next := by
  obtain ⟨⟨in', objects⟩, hfirst, hrest⟩ := Option.bind_eq_some_iff.mp hmove
  obtain ⟨⟨out, objects'⟩, hsecond, hconstruct⟩ := Option.bind_eq_some_iff.mp hrest
  obtain ⟨hnone, rfl⟩ := IoWorld.construct_eq_some hconstruct
  obtain ⟨hheld, hinFd, hall⟩ := held_moveFrom hsound.consistent hin hfirst
  obtain ⟨hheld', houtFd, hall'⟩ := held_moveFrom hall (Movable.moveFrom hout hfirst) hsecond
  obtain ⟨hnone', hne⟩ := eq_none_of_moveFrom hsecond hnone
  have hread : outFile ≠ (loc, .readEnd) := fun heq => hne (by rw [heq])
  have hempty (member : Member) : world.objects.held (loc, member) = none :=
    held_of_none (eq_none_of_moveFrom hfirst hnone').1
  refine ⟨?_, hall'.put trivial⟩
  -- both descriptors are taken before the duplex exists, which is as good as two moves in a row
  have hview := (hsound.view.move (p := inFile) (hempty .readEnd)).move (p := outFile)
    (q := (loc, .writeEnd)) ?_
  · rw [hheld] at houtFd
    simp only [view, held_put_duplex hnone, hheld', hheld, ← hinFd, ← houtFd]
    simpa only [view, Ownership.move, Function.update_comm hread, Function.update_of_ne hread]
      using hview
  · have hne' : (loc, Member.writeEnd) ≠ (loc, Member.readEnd) := by simp
    simp only [view, Ownership.move, Function.update_of_ne hne', Function.update_apply]
    split
    · rfl
    · exact hempty .writeEnd

theorem sound_moveDuplex {rhs : Nat} (hsound : Sound world)
    (hmove : world.moveDuplex loc rhs = some next) : Sound next := by
  obtain ⟨⟨in', objects⟩, hfirst, hrest⟩ := Option.bind_eq_some_iff.mp hmove
  obtain ⟨⟨out, objects'⟩, hsecond, -⟩ := Option.bind_eq_some_iff.mp hrest
  obtain ⟨hin, rfl⟩ := moveFrom_eq hfirst
  have hout := isBuffered_end (by simp) (moveFrom_eq hsecond).1
  rw [isBuffered_setFile_eq] at hout
  exact sound_moveFiles hsound (Or.inl (isBuffered_end (by simp) hin)) (Or.inl hout) hmove

theorem sound_swapFile (hsound : Sound world) (hswappable : world.objects.Swappable lhs rhs)
    (hswap : world.swapFile lhs rhs = some next) : Sound next := by
  obtain ⟨objects', hobjects, rfl⟩ := Option.map_eq_some_iff.mp hswap
  obtain ⟨x, hx, hrest⟩ := Option.bind_eq_some_iff.mp hobjects
  obtain ⟨y, hy, hobjects⟩ := Option.bind_eq_some_iff.mp hrest
  obtain rfl := Option.some.inj hobjects
  rcases hswappable with ⟨hlhs, hrhs⟩ | hsame
  · have hlhs' := consistent_setFile y hsound.consistent hlhs
    have hrhs' : (world.objects.setFile lhs y).isBuffered rhs = false :=
      isBuffered_setFile_eq.trans hrhs
    refine ⟨?_, consistent_setFile x hlhs' hrhs'⟩
    have hview := hsound.view.exchange rhs lhs
    -- the two slots may be one
    obtain ⟨z, hz⟩ : ∃ z, (world.objects.setFile lhs y).getFile rhs = some z := by
      rw [getFile_setFile_eq hx]
      split
      · exact ⟨y, rfl⟩
      · exact ⟨y, hy⟩
    simp only [view, held_setFile_eq hz hrhs', held_setFile_eq hx hlhs]
    simpa only [view, Ownership.exchange, Equiv.comp_swap_eq_update,
      held_eq_validFd hsound.consistent hx, held_eq_validFd hsound.consistent hy] using hview
  · obtain rfl : x = y := Option.some.inj (hx.symm.trans (hsame.trans hy))
    rw [setFile_unchanged hx, setFile_unchanged hy]
    exact hsound

theorem sound_swapEnds (hsound : Sound world) (hlhs : lhs.2 ≠ .whole) (hrhs : rhs.2 ≠ .whole)
    (hswap : world.swapFile lhs rhs = some next) : Sound next := by
  obtain ⟨objects', hobjects, -⟩ := Option.map_eq_some_iff.mp hswap
  obtain ⟨x, hx, hrest⟩ := Option.bind_eq_some_iff.mp hobjects
  obtain ⟨y, hy, -⟩ := Option.bind_eq_some_iff.mp hrest
  exact sound_swapFile hsound (Or.inl ⟨isBuffered_end hlhs hx, isBuffered_end hrhs hy⟩) hswap

theorem sound_swapWhole {a b : Nat} {x y : IoObject} (hsound : Sound world)
    (ha : world.objects a = some x) (hb : world.objects b = some y)
    (hxs : ∀ in' out, x ≠ .duplex in' out) (hys : ∀ in' out, y ≠ .duplex in' out) :
    Sound { world with objects := (world.objects.put a y).put b x } := by
  refine ⟨?_, (hsound.consistent.put (hsound.consistent b y hb)).put (hsound.consistent a x ha)⟩
  have hxheld (member : Member) : world.objects.held (a, member) = x.held member :=
    held_of_object ha
  have hyheld (member : Member) : world.objects.held (b, member) = y.held member :=
    held_of_object hb
  have hfirst := held_put_whole y ha hxs hys
  have hsecond : IoObjects.held ((world.objects.put a y).put b x) =
      Function.update (Function.update world.objects.held (a, .whole) (y.held .whole)) (b, .whole)
        (x.held .whole) := by
    by_cases hab : b = a
    · subst hab
      rw [held_put_whole x ObjectStore.put_self hys hxs, hfirst]
    · rw [held_put_whole x ((ObjectStore.put_of_ne hab).trans hb) hys hxs, hfirst]
  have hview := hsound.view.exchange (b, .whole) (a, .whole)
  simpa only [view, Ownership.exchange, Equiv.comp_swap_eq_update, hxheld, hyheld, hsecond]
    using hview

theorem closeFile_eq (hall : world.objects.All IoObject.Consistent)
    (hclose : world.closeFile slot = some next) :
    view next = (view world).release slot ∧ next.objects.All IoObject.Consistent := by
  obtain ⟨loc, member⟩ := slot
  unfold IoWorld.closeFile at hclose
  split at hclose
  case h_1 old fp hobject hmember =>
    obtain rfl : member = .whole := hmember
    obtain rfl := Option.some.inj hclose
    refine ⟨?_, hall.put validFd_invalid.symm⟩
    have hput := held_put_whole (.bufferedFile InvalidFd none) hobject (by simp) (by simp)
    have hfp : world.objects.held (loc, .whole) = fp := held_of_object hobject
    simp only [view, Ownership.release, BufferedFile.close, hput, hfp, IoObject.held]
  case h_2 hother =>
    obtain ⟨fd, hfile, rfl⟩ := Option.map_eq_some_iff.mp hclose
    have hplain : world.objects.isBuffered (loc, member) = false := by
      by_cases hmember : member = .whole
      · subst hmember
        obtain ⟨object, hobject, -⟩ := getFile_eq_some hfile
        rw [IoObjects.isBuffered, hobject]
        cases object with
        | bufferedFile fd fp => exact (hother fd fp hobject rfl).elim
        | _ => rfl
      · exact isBuffered_end hmember hfile
    refine ⟨?_, consistent_setFile _ hall hplain⟩
    simp only [view, Ownership.release, File.close_none, held_setFile_eq hfile hplain,
      validFd_invalid, held_eq_validFd hall hfile]

theorem sound_closeFile (hsound : Sound world) (hclose : world.closeFile slot = some next) :
    Sound next := by
  obtain ⟨hview, hall⟩ := closeFile_eq hsound.consistent hclose
  exact ⟨hview ▸ hsound.view.release slot, hall⟩

theorem sound_remove (hsound : Sound world)
    (hnone : ∀ member, world.objects.held (loc, member) = none) : Sound (world.remove loc) := by
  refine ⟨?_, hsound.consistent.remove⟩
  have hheld : IoObjects.held (world.objects.remove loc) = world.objects.held := by
    rw [held_remove .whole fun other _ => hnone other, ← hnone .whole,
      Function.update_eq_self]
  simpa only [view, IoWorld.remove, hheld] using hsound.view

theorem sound_closeSharedMemory (hsound : Sound world)
    (hclose : world.closeSharedMemory loc = some next) : Sound next := by
  unfold IoWorld.closeSharedMemory at hclose
  split at hclose
  case h_1 fd linkedPath hobject =>
    obtain rfl := Option.some.inj hclose
    refine ⟨?_, hsound.consistent.put trivial⟩
    obtain ⟨hfd, hreleased⟩ : (SharedMemory.close fd none).fd = InvalidFd ∧
        (SharedMemory.close fd none).released = (validFd fd).toList :=
      SharedMemory.close_of_succeeds fun _ => rfl
    have hput := held_put_whole (.sharedMemory InvalidFd linkedPath) hobject (by simp) (by simp)
    have hheld : world.objects.held (loc, .whole) = validFd fd := held_of_object hobject
    have hview := hsound.view.release (loc, .whole)
    simpa only [view, Ownership.release, hfd, hreleased, hput, hheld, IoObject.held,
      validFd_invalid] using hview
  case h_2 => cases hclose

theorem sound_moveSharedMemory {source : Nat} (hsound : Sound world)
    (hmove : world.moveSharedMemory loc source = some next) : Sound next := by
  unfold IoWorld.moveSharedMemory at hmove
  split at hmove
  case h_1 fd linkedPath hobject =>
    obtain ⟨hnone, rfl⟩ := IoWorld.construct_eq_some hmove
    dsimp only at hnone
    have hne : loc ≠ source := by
      rintro rfl
      rw [ObjectStore.put_self] at hnone
      cases hnone
    have hall : (world.objects.put source (.sharedMemory InvalidFd none)).All
        IoObject.Consistent := hsound.consistent.put trivial
    refine ⟨?_, hall.put trivial⟩
    have hsource := held_put_whole (.sharedMemory InvalidFd none) hobject (by simp) (by simp)
    have hput := held_put_of_none (.sharedMemory fd linkedPath) .whole hnone fun other hother =>
      held_of_ne_whole (by simp) hother
    have hheld : world.objects.held (source, .whole) = validFd fd := held_of_object hobject
    rw [ObjectStore.put_of_ne hne] at hnone
    have hview := hsound.view.move (p := (source, .whole)) (q := (loc, .whole))
      (held_of_none hnone)
    simpa only [view, Ownership.move, hput, hsource, hheld, IoObject.held, validFd_invalid]
      using hview
  case h_2 => cases hmove

theorem sound_destroyWhole (hsound : Sound world) (hobject : world.objects loc = some object)
    (hduplex : ∀ in' out, object ≠ .duplex in' out)
    (hdestroy : ((world.closeFile (loc, .whole)).map fun world => world.remove loc) = some next) :
    Sound next := by
  obtain ⟨closed, hclose, rfl⟩ := Option.map_eq_some_iff.mp hdestroy
  obtain ⟨hview, -⟩ := closeFile_eq hsound.consistent hclose
  have hheld : closed.objects.held = Function.update world.objects.held (loc, .whole) none :=
    congrArg Ownership.held hview
  refine sound_remove (sound_closeFile hsound hclose) fun member => ?_
  rw [hheld]
  by_cases hmember : member = .whole
  · rw [hmember, Function.update_self]
  · rw [Function.update_of_ne (by simp [hmember]), held_of_object hobject]
    exact held_of_ne_whole hduplex hmember

theorem sound_destroyDuplex {in' out : PollId} (hsound : Sound world)
    (hobject : world.objects loc = some (.duplex in' out))
    (hdestroy : (((world.closeFile (loc, .writeEnd)).bind fun world =>
      world.closeFile (loc, .readEnd)).map fun world => world.remove loc) = some next) :
    Sound next := by
  obtain ⟨closed, hclose, rfl⟩ := Option.map_eq_some_iff.mp hdestroy
  obtain ⟨middle, hout, hin⟩ := Option.bind_eq_some_iff.mp hclose
  have hmiddle := sound_closeFile hsound hout
  have hheld : middle.objects.held = Function.update world.objects.held (loc, .writeEnd) none :=
    congrArg Ownership.held (closeFile_eq hsound.consistent hout).1
  have hheld' : closed.objects.held = Function.update middle.objects.held (loc, .readEnd) none :=
    congrArg Ownership.held (closeFile_eq hmiddle.consistent hin).1
  refine sound_remove (sound_closeFile hmiddle hin) fun member => ?_
  rw [hheld', hheld]
  cases member with
  | readEnd => exact Function.update_self _ _ _
  | writeEnd => simp
  | whole => simp [held_of_object hobject, IoObject.held]

theorem sound_destroy (hsound : Sound world) (hdestroy : world.destroy loc = some next) :
    Sound next := by
  cases hobject : world.objects loc with
  | none => simp [IoWorld.destroy, hobject] at hdestroy
  | some object =>
      cases object with
      | duplex in' out =>
          simp only [IoWorld.destroy, hobject] at hdestroy
          exact sound_destroyDuplex hsound hobject hdestroy
      | sharedMemory fd linkedPath =>
          have hothers (other : Member) (hne : other ≠ .whole) :
              world.objects.held (loc, other) = none :=
            (held_of_object hobject).trans (held_of_ne_whole (by simp) hne)
          have hheld : world.objects.held (loc, .whole) = validFd fd := held_of_object hobject
          simp only [IoWorld.destroy, hobject] at hdestroy
          split at hdestroy
          case isTrue heq =>
            obtain rfl := Option.some.inj hdestroy
            refine sound_remove hsound fun member => ?_
            by_cases hmember : member = .whole
            · rw [hmember, hheld, heq, validFd_invalid]
            · exact hothers member hmember
          case isFalse hne =>
            obtain rfl := Option.some.inj hdestroy
            refine ⟨?_, hsound.consistent.remove⟩
            have hview := hsound.view.release (loc, .whole)
            simpa only [view, Ownership.release, IoWorld.remove, held_remove .whole hothers, hheld,
              validFd_eq_some hne, Option.toList_some] using hview
      | _ =>
          simp only [IoWorld.destroy, hobject] at hdestroy
          exact sound_destroyWhole hsound hobject (by simp) hdestroy

/-! ### Every run -/

theorem sound_create : Sound create := by
  refine ⟨⟨List.nodup_nil, ?_, ?_, ?_, ?_⟩, ?_⟩
  · intro fd hfd
    cases hfd
  · intro slot fd hheld
    cases hheld
  · intro p q fd hheld
    cases hheld
  · intro fd hfd
    cases hfd
  · intro loc object hobject
    cases hobject

theorem sound_step {action : Action} (hsound : Sound world)
    (hstep : step world action = some next) (hspares : SparesBuffered world action) :
    Sound next := by
  cases action with
  | adoptFile loc fd =>
      exact sound_adopt hsound hstep (by simp) fun hfd => ⟨validFd_eq_some hfd, trivial⟩
  | adoptSerial loc fd =>
      exact sound_adopt hsound hstep (by simp) fun hfd => ⟨validFd_eq_some hfd, trivial⟩
  | adoptSharedMemory loc fd linkedPath =>
      exact sound_adopt hsound hstep (by simp) fun hfd => ⟨validFd_eq_some hfd, trivial⟩
  | adoptBufferedFile loc fd =>
      exact sound_adopt hsound hstep (by simp) fun hfd => ⟨rfl, (validFd_eq_some hfd).symm⟩
  | adoptDuplex loc inFid outFid => exact sound_adoptDuplex hsound hstep
  | moveFile loc other =>
      obtain ⟨⟨fd, objects⟩, hmove, hconstruct⟩ := Option.bind_eq_some_iff.mp hstep
      exact sound_moveFile hsound hspares rfl rfl (by simp) hmove hconstruct
  | moveSerial loc other =>
      simp only [step, IoWorld.moveSerial] at hstep
      split at hstep
      case h_1 old hobject =>
        obtain ⟨⟨fd, objects⟩, hmove, hconstruct⟩ := Option.bind_eq_some_iff.mp hstep
        have hmovable : world.objects.Movable (other, .whole) := by
          refine Or.inl ?_
          rw [IoObjects.isBuffered, hobject]
          rfl
        exact sound_moveFile hsound hmovable rfl rfl (by simp) hmove hconstruct
      case h_2 => cases hstep
  | moveFiles loc inFile outFile => exact sound_moveFiles hsound hspares.1 hspares.2 hstep
  | moveDuplex loc rhs => exact sound_moveDuplex hsound hstep
  | moveSharedMemory loc other => exact sound_moveSharedMemory hsound hstep
  | swapFile lhs rhs => exact sound_swapFile hsound hspares hstep
  | swapDuplex lhs rhs =>
      obtain ⟨middle, hread, hwrite⟩ := Option.bind_eq_some_iff.mp hstep
      exact sound_swapEnds (sound_swapEnds hsound (by simp) (by simp) hread) (by simp) (by simp)
        hwrite
  | swapSharedMemory lhs rhs =>
      simp only [step, IoWorld.swapSharedMemory] at hstep
      split at hstep
      case h_1 fd path fd' path' hlhs hrhs =>
        obtain rfl := Option.some.inj hstep
        exact sound_swapWhole hsound hlhs hrhs (by simp) (by simp)
      case h_2 => cases hstep
  | swapBufferedFile lhs rhs =>
      simp only [step, IoWorld.swapBufferedFile] at hstep
      split at hstep
      case h_1 fd fp fd' fp' hlhs hrhs =>
        obtain rfl := Option.some.inj hstep
        exact sound_swapWhole hsound hlhs hrhs (by simp) (by simp)
      case h_2 => cases hstep
  | closeFile slot => exact sound_closeFile hsound hstep
  | closeDuplex loc =>
      obtain ⟨middle, hin, hout⟩ := Option.bind_eq_some_iff.mp hstep
      exact sound_closeFile (sound_closeFile hsound hin) hout
  | closeSharedMemory loc => exact sound_closeSharedMemory hsound hstep
  | destroy loc => exact sound_destroy hsound hstep

theorem Sound.accounted (hsound : Sound world) : Accounted world := by
  refine ⟨hsound.view.nodup, ?_, ?_⟩
  · intro loc object hobject _ fd hfd
    obtain ⟨member, hheld⟩ := exists_held (hsound.consistent loc object hobject) hfd
    have hslot := (held_of_object hobject).trans hheld
    exact (hsound.view.live (loc, member) fd hslot).2
  · intro hempty fd hfd
    exact hsound.view.count_released (fun slot => held_of_none (hempty slot.1)) hfd

/-- **Descriptors.** In a run whose moves and swaps of `File` spare every open `BufferedFile`, each
descriptor is released once, and no open object is left with one that is released. -/
theorem accounted_of_sparesBuffered (actions : List Action)
    (hspares : Guarded step SparesBuffered create actions) :
    Always step Accounted create actions := by
  have hsound : Always step Sound create actions :=
    always_of_guarded sound_create (fun _ _ _ hsound hstep hguard => sound_step hsound hstep hguard)
      hspares
  exact hsound.mono fun _ hsound => hsound.accounted

/-- A duplex is put together from a file and an end of another duplex, next to a buffered file. -/
theorem accounted_of_recombined_duplex :
    Always step Accounted create
      [.adoptBufferedFile 0 3, .adoptFile 1 4, .adoptDuplex 2 5 6,
        .swapFile (1, .whole) (2, .readEnd), .moveFiles 3 (1, .whole) (2, .writeEnd),
        .closeFile (0, .whole), .moveFile 4 (0, .whole), .destroy 0, .destroy 1, .destroy 2,
        .destroy 3, .destroy 4] :=
  accounted_of_sparesBuffered _ (by decide)

/-- A buffered file is moved into a file, and both are destroyed. -/
theorem not_accounted_of_moved_bufferedFile :
    ¬ Always step Accounted create
      [.adoptBufferedFile 0 3, .moveFile 1 (0, .whole), .destroy 1, .destroy 0] := by
  intro halways
  have haccounted := halways.of_run rfl
  exact absurd haccounted.1 (by decide)

end Cadence.DescriptorOwnership

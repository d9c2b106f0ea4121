import Mathlib.Data.List.Nodup
import Mathlib.Logic.Equiv.Basic

/-!
# Tokens that are released once

Tokens are adopted into places, travel from place to place, and are released. As long as they only
travel by moves into empty places and by exchanges, no two places hold the same token, so a place that
releases what it holds releases it for the first time.
-/

structure Ownership (Place Token : Type*) where
  held : Place → Option Token
  adopted : List Token
  released : List Token

namespace Ownership

variable {Place Token : Type*}

structure Sound (ownership : Ownership Place Token) : Prop where
  nodup : ownership.released.Nodup
  adopted : ∀ token ∈ ownership.released, token ∈ ownership.adopted
  live : ∀ p token, ownership.held p = some token →
    token ∈ ownership.adopted ∧ token ∉ ownership.released
  unique : ∀ p q token, ownership.held p = some token → ownership.held q = some token → p = q
  covered : ∀ token ∈ ownership.adopted,
    token ∈ ownership.released ∨ ∃ p, ownership.held p = some token

theorem Sound.count_released [DecidableEq Token] {ownership : Ownership Place Token}
    (hsound : ownership.Sound)
    (hempty : ∀ p, ownership.held p = none) {token : Token} (htoken : token ∈ ownership.adopted) :
    ownership.released.count token = 1 := by
  apply List.count_eq_one_of_mem hsound.nodup
  refine (hsound.covered token htoken).resolve_right ?_
  rintro ⟨p, hp⟩
  rw [hempty p] at hp
  cases hp

variable [DecidableEq Place] {ownership : Ownership Place Token} {p q : Place} {token : Token}

def adopt (ownership : Ownership Place Token) (p : Place) (token : Token) :
    Ownership Place Token :=
  { ownership with
    held := Function.update ownership.held p (some token)
    adopted := ownership.adopted ++ [token] }

def exchange (ownership : Ownership Place Token) (p q : Place) : Ownership Place Token :=
  { ownership with held := ownership.held ∘ Equiv.swap p q }

def move (ownership : Ownership Place Token) (p q : Place) : Ownership Place Token :=
  { ownership with
    held := Function.update (Function.update ownership.held p none) q (ownership.held p) }

def release (ownership : Ownership Place Token) (p : Place) : Ownership Place Token :=
  { ownership with
    held := Function.update ownership.held p none
    released := ownership.released ++ (ownership.held p).toList }

@[simp] theorem adopt_held_self : (ownership.adopt p token).held p = some token := by
  simp [adopt]

theorem adopt_held_of_ne (hne : q ≠ p) :
    (ownership.adopt p token).held q = ownership.held q := by
  simp [adopt, hne]

@[simp] theorem release_held_self : (ownership.release p).held p = none := by
  simp [release]

theorem release_held_of_ne (hne : q ≠ p) : (ownership.release p).held q = ownership.held q := by
  simp [release, hne]

theorem Sound.adopt (hsound : ownership.Sound) (hempty : ownership.held p = none)
    (hfresh : token ∉ ownership.adopted) : (ownership.adopt p token).Sound where
  nodup := hsound.nodup
  adopted other hother := List.mem_append_left _ (hsound.adopted other hother)
  live r other hother := by
    by_cases heq : r = p
    · rw [heq, adopt_held_self] at hother
      obtain rfl := Option.some.inj hother
      exact ⟨List.mem_append_right _ (List.mem_singleton_self _),
        fun hreleased => hfresh (hsound.adopted _ hreleased)⟩
    · rw [adopt_held_of_ne heq] at hother
      obtain ⟨hadopted, hreleased⟩ := hsound.live r other hother
      exact ⟨List.mem_append_left _ hadopted, hreleased⟩
  unique r s other hr hs := by
    by_cases hrp : r = p
    · by_cases hsp : s = p
      · rw [hrp, hsp]
      · rw [hrp, adopt_held_self] at hr
        rw [adopt_held_of_ne hsp, ← hr] at hs
        exact absurd (hsound.live s token hs).1 hfresh
    · rw [adopt_held_of_ne hrp] at hr
      by_cases hsp : s = p
      · rw [hsp, adopt_held_self] at hs
        rw [← hs] at hr
        exact absurd (hsound.live r token hr).1 hfresh
      · rw [adopt_held_of_ne hsp] at hs
        exact hsound.unique r s other hr hs
  covered other hother := by
    rcases List.mem_append.mp hother with hold | hnew
    · refine (hsound.covered other hold).imp_right fun ⟨r, hr⟩ => ⟨r, ?_⟩
      have hne : r ≠ p := by
        rintro rfl
        rw [hempty] at hr
        cases hr
      rw [adopt_held_of_ne hne, hr]
    · rw [List.mem_singleton.mp hnew]
      exact Or.inr ⟨p, adopt_held_self⟩

theorem Sound.exchange (hsound : ownership.Sound) (p q : Place) :
    (ownership.exchange p q).Sound where
  nodup := hsound.nodup
  adopted := hsound.adopted
  live r token hr := hsound.live _ token hr
  unique r s token hr hs := (Equiv.swap p q).injective (hsound.unique _ _ token hr hs)
  covered token htoken := by
    refine (hsound.covered token htoken).imp_right fun ⟨r, hr⟩ => ⟨Equiv.swap p q r, ?_⟩
    simpa [Ownership.exchange] using hr

theorem move_eq_exchange (hempty : ownership.held q = none) :
    ownership.move p q = ownership.exchange p q := by
  have hheld : Function.update (Function.update ownership.held p none) q (ownership.held p) =
      ownership.held ∘ Equiv.swap p q := by
    rw [Equiv.comp_swap_eq_update, hempty]
    by_cases heq : p = q
    · rw [heq, hempty]
    · exact Function.update_comm heq _ _ _
  rw [move, exchange, hheld]

theorem Sound.move (hsound : ownership.Sound) (hempty : ownership.held q = none) :
    (ownership.move p q).Sound := by
  rw [move_eq_exchange hempty]
  exact hsound.exchange p q

theorem Sound.release (hsound : ownership.Sound) (p : Place) : (ownership.release p).Sound := by
  have hold (r : Place) (token : Token) (hr : (ownership.release p).held r = some token) :
      r ≠ p ∧ ownership.held r = some token := by
    by_cases heq : r = p
    · rw [heq, release_held_self] at hr
      cases hr
    · rw [release_held_of_ne heq] at hr
      exact ⟨heq, hr⟩
  constructor
  · refine List.nodup_append.mpr ⟨hsound.nodup, ?_, ?_⟩
    · cases ownership.held p <;> simp
    · rintro token htoken other hother rfl
      exact (hsound.live p token (by simpa using hother)).2 htoken
  · intro token htoken
    rcases List.mem_append.mp htoken with hreleased | hnew
    · exact hsound.adopted token hreleased
    · exact (hsound.live p token (by simpa using hnew)).1
  · intro r token hr
    obtain ⟨hne, hr⟩ := hold r token hr
    obtain ⟨hadopted, hreleased⟩ := hsound.live r token hr
    refine ⟨hadopted, fun hmem => ?_⟩
    rcases List.mem_append.mp hmem with hmem | hnew
    · exact hreleased hmem
    · exact hne (hsound.unique r p token hr (by simpa using hnew))
  · intro r s token hr hs
    exact hsound.unique r s token (hold r token hr).2 (hold s token hs).2
  · intro token htoken
    rcases hsound.covered token htoken with hreleased | ⟨r, hr⟩
    · exact Or.inl (List.mem_append_left _ hreleased)
    · by_cases heq : r = p
      · rw [heq] at hr
        exact Or.inl (List.mem_append_right _ (by simp [hr]))
      · exact Or.inr ⟨r, (release_held_of_ne heq).trans hr⟩

end Ownership

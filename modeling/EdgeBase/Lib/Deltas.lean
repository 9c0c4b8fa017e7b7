import Mathlib.Data.Option.Basic

/-!
# Deltas of keyed values

A source changes the values of keys.  It tells copies of it in deltas, which give some keys a new
value or unbind them.  The wire has its own words for the two: a codec writes a binding as a word
and reads a word back, and some bindings may not be read back as they were written.

* `Deltas.View` : what each key is bound to.
* `Deltas.Delta` : the words that a delta has for its keys; `Deltas.merge` : two of them in one.
* `Deltas.Codec.apply_eq` : a copy that differs from the source in the keys of a delta at most is
  the source after the delta, if the words of the delta are read as they were written.
-/

namespace Deltas

open Option

variable {κ β ω : Type*}

abbrev View (κ β : Type*) := κ → Option β

abbrev Delta (κ ω : Type*) := κ → Option ω

/-- How a binding is written as a word, and a word is read. -/
structure Codec (β ω : Type*) where
  encode : Option β → ω
  decode : ω → Option β

/-- Two deltas in one: the later words count. -/
def merge (d e : Delta κ ω) : Delta κ ω := fun k => (e k).or (d k)

namespace Codec

variable (c : Codec β ω)

def apply (d : Delta κ ω) (v : View κ β) : View κ β := fun k =>
  match d k with
  | some word => c.decode word
  | none => v k

def Encodes (d : Delta κ ω) (v : View κ β) : Prop :=
  ∀ k word, d k = some word → word = c.encode (v k)

/-- The words of a delta are read as the bindings of a view. -/
def Legible (d : Delta κ ω) (v : View κ β) : Prop :=
  ∀ k, d k ≠ none → c.decode (c.encode (v k)) = v k

end Codec

/-- Two views differ in the keys of a delta at most. -/
def Covers (d : Delta κ ω) (v w : View κ β) : Prop := ∀ k, d k = none → v k = w k

variable {c : Codec β ω} {d e : Delta κ ω} {u v w : View κ β}

@[simp] theorem merge_none : merge d (fun _ => none) = d := by
  funext k
  exact none_or

theorem Covers.refl (v : View κ β) : Covers d v v := fun _ _ => rfl

theorem Covers.merge (hd : Covers d u v) (he : Covers e v w) : Covers (merge d e) u w := by
  intro k hk
  obtain ⟨hek, hdk⟩ := or_eq_none_iff.1 hk
  exact (hd k hdk).trans (he k hek)

/-- The later words tell the later bindings, and a key that they leave alone has kept its own. -/
theorem Codec.Encodes.merge (hd : c.Encodes d v) (hcovers : Covers e v w) (he : c.Encodes e w) :
    c.Encodes (merge d e) w := by
  intro k word hk
  cases hek : e k with
  | some word' =>
    rw [Deltas.merge, hek, some_or] at hk
    obtain rfl := some.inj hk
    exact he k word' hek
  | none =>
    rw [Deltas.merge, hek, none_or] at hk
    rw [← hcovers k hek]
    exact hd k word hk

/-- A copy that differs from the source in the keys of a delta at most is the source after it. -/
theorem Codec.apply_eq (hencodes : c.Encodes d v) (hcovers : Covers d u v)
    (hlegible : c.Legible d v) : c.apply d u = v := by
  funext k
  unfold Codec.apply
  split
  · rename_i word hk
    rw [hencodes k word hk]
    exact hlegible k (by rw [hk]; exact nofun)
  · rename_i hk
    exact hcovers k hk

end Deltas

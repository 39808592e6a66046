import Mathlib.Data.List.Nodup
import SeisFeed.Channel.Directory
/-!
# Looking up channels

A directory holds a key at most once, so a look-up finds the channel with a key, whichever way it
goes through the list. A channel's name is split into its station and its component at the first
dot.
-/

namespace SeisFeed

/-- A name is a station and a component with a dot between them, the first in the name; or there is
no dot, and all of it is the station. -/
def SplitAtDot (name station component : String) : Prop :=
  '.' ∉ station.toList ∧ (name = station ++ "." ++ component ∨ name = station ∧ component = "")

theorem split_at_dot (cs : List Char) :
    ('.' ∈ cs ∧ cs = cs.takeWhile (· ≠ '.') ++ '.' :: (cs.dropWhile (· ≠ '.')).drop 1) ∨
      ('.' ∉ cs ∧ cs.takeWhile (· ≠ '.') = cs ∧ (cs.dropWhile (· ≠ '.')).drop 1 = []) := by
  induction cs with
  | nil => simp
  | cons c cs ih =>
    by_cases hc : c = '.'
    · simp [hc]
    · have hc' : '.' ≠ c := fun h => hc h.symm
      simpa [hc, hc'] using ih

theorem notMem_takeWhile_dot (cs : List Char) : '.' ∉ cs.takeWhile (· ≠ '.') := by
  intro h
  have := List.all_eq_true.1 (List.all_takeWhile (l := cs) (p := (· ≠ '.'))) '.' h
  simp at this

theorem takeWhile_dropWhile_dot (front back : List Char) (hfront : '.' ∉ front) :
    (front ++ '.' :: back).takeWhile (· ≠ '.') = front ∧
      ((front ++ '.' :: back).dropWhile (· ≠ '.')).drop 1 = back := by
  induction front with
  | nil => simp
  | cons c front ih =>
    have hc : c ≠ '.' := fun h => hfront (h ▸ List.mem_cons_self)
    have ih := ih fun h => hfront (List.mem_cons_of_mem c h)
    simpa [hc] using ih

theorem splitName_eq_iff (name station component : String) :
    splitName name = (station, component) ↔ SplitAtDot name station component := by
  constructor
  · intro h
    obtain ⟨rfl, rfl⟩ := Prod.mk.inj h
    refine ⟨?_, ?_⟩
    · rw [String.toList_ofList]
      exact notMem_takeWhile_dot name.toList
    · rcases split_at_dot name.toList with ⟨-, heq⟩ | ⟨-, hfront, hback⟩
      · left
        apply String.toList_injective
        simpa using heq
      · right
        rw [hfront, hback]
        exact ⟨String.ofList_toList.symm, rfl⟩
  · rintro ⟨hdot, rfl | ⟨rfl, rfl⟩⟩
    · obtain ⟨hfront, hback⟩ := takeWhile_dropWhile_dot station.toList component.toList hdot
      have hname : (station ++ "." ++ component).toList =
          station.toList ++ '.' :: component.toList := by simp
      rw [splitName, hname, hfront, hback, String.ofList_toList, String.ofList_toList]
    · rcases split_at_dot name.toList with ⟨h, -⟩ | ⟨-, hfront, hback⟩
      · exact absurd h hdot
      · rw [splitName, hfront, hback, String.ofList_toList]

namespace Directory

theorem get?_eq_none_iff (d : Directory) (key : UInt32) :
    d.get? key = none ↔ ∀ c ∈ d.channels, c.key ≠ key := by
  simp [get?]

theorem get?_eq_some_iff (d : Directory) (key : UInt32) (c : Channel) :
    d.get? key = some c ↔ c ∈ d.channels ∧ c.key = key := by
  constructor
  · intro h
    exact ⟨List.mem_of_find?_eq_some h, by simpa using List.find?_some h⟩
  · rintro ⟨hc, rfl⟩
    cases h : d.get? c.key with
    | none => exact absurd rfl ((d.get?_eq_none_iff c.key).1 h c hc)
    | some c' =>
      have hc' : c' ∈ d.channels := List.mem_of_find?_eq_some h
      have hkey : c'.key = c.key := by simpa using List.find?_some h
      exact congrArg some (List.inj_on_of_nodup_map d.distinct hc' hc hkey)

end Directory

end SeisFeed

import Mathlib.Logic.Function.Basic
import Nrpc.Common.Machine
/-!
# Lanes served in order

Items arrive, each under a key, and the items of one key form a lane: they
are served one at a time, in the order in which they arrived. `lanes` is
the machine of all lanes at once; its events are the arrival of an item,
the start of its service and the end of it. An event is enabled only in
its turn, so a run says all there is to say about the order: in each lane
the items started, followed by the items that wait, are the items that
arrived, and the items finished, followed by the one served, are the items
started (`run_eq`).

A system serves its items in order when `lanes` can follow it.
-/

namespace Nrpc

/-- **A lane**: the items that wait, the next one first, and the item being
served. -/
structure Lane (β : Type*) where
  waiting : List β
  serving : Option β

namespace Lane

variable {κ β : Type*}

/-- What happens to an item. -/
inductive Event (β : Type*)
  | put (x : β)
  | start (x : β)
  | finish (x : β)

namespace Event

/-- The item an event is about. -/
def item : Event β → β
  | put x | start x | finish x => x

/-- The item that arrives. -/
def puts : Event β → List β
  | put x => [x]
  | _ => []

/-- The item whose service starts. -/
def starts : Event β → List β
  | start x => [x]
  | _ => []

/-- The item whose service ends. -/
def finishes : Event β → List β
  | finish x => [x]
  | _ => []

end Event

/-- The events of items that arrive, of items that start and of items that
finish, in this order. -/
def events (puts starts finishes : List β) : List (Event β) :=
  puts.map .put ++ starts.map .start ++ finishes.map .finish

theorem puts_events (p b f : List β) : (events p b f).flatMap Event.puts = p := by
  simp [events, List.flatMap_append, List.flatMap_map, Event.puts]

theorem starts_events (p b f : List β) : (events p b f).flatMap Event.starts = b := by
  have hb : (b.map fun x => [x]).flatten = b := List.flatMap_singleton' b
  simp [events, List.flatMap_def, Function.comp_def, Event.starts, hb]

theorem finishes_events (p b f : List β) : (events p b f).flatMap Event.finishes = f := by
  have hf : (f.map fun x => [x]).flatten = f := List.flatMap_singleton' f
  simp [events, List.flatMap_def, Function.comp_def, Event.finishes, hf]

/-- The items of one lane among a list. -/
def ofKey [DecidableEq κ] (key : β → κ) (k : κ) (xs : List β) : List β :=
  xs.filter fun x => key x = k

theorem ofKey_append [DecidableEq κ] {key : β → κ} (k : κ) (xs ys : List β) :
    ofKey key k (xs ++ ys) = ofKey key k xs ++ ofKey key k ys :=
  List.filter_append ..

/-- Lists with the same items in every lane have the same items. -/
theorem perm_of_ofKey [DecidableEq κ] [DecidableEq β] {key : β → κ} {xs ys : List β}
    (h : ∀ k, ofKey key k xs = ofKey key k ys) : xs.Perm ys := by
  refine List.perm_iff_count.2 ?_
  intro x
  have hcount (zs : List β) : (ofKey key (key x) zs).count x = zs.count x :=
    List.count_filter (by simp)
  rw [← hcount xs, ← hcount ys, h]

section Machine

variable [DecidableEq β]

/-- One event in its own lane: an item arrives at the end of the lane, the
first item starts when none is served, the item served finishes. -/
def step (l : Lane β) : Event β → Option (Lane β)
  | .put x => some { l with waiting := l.waiting ++ [x] }
  | .start x => if l.serving = none ∧ l.waiting.head? = some x then
      some ⟨l.waiting.tail, some x⟩ else none
  | .finish x => if l.serving = some x then some { l with serving := none } else none

/-- **What an event does to its lane**: items come in at the end, go over
from the front, and come out one at a time. -/
theorem step_eq {l l' : Lane β} {e : Event β} (h : l.step e = some l') :
    e.starts ++ l'.waiting = l.waiting ++ e.puts ∧
      e.finishes ++ l'.serving.toList = l.serving.toList ++ e.starts := by
  cases e with
  | put x =>
    obtain rfl := Option.some.inj h
    simp [Event.starts, Event.puts, Event.finishes]
  | start x =>
    obtain ⟨⟨hserving, hhead⟩, h⟩ := Option.ite_none_right_eq_some.1 h
    obtain rfl := Option.some.inj h
    have hwaiting : x :: l.waiting.tail = l.waiting := List.cons_head?_tail hhead
    simp [Event.starts, Event.puts, Event.finishes, hserving, hwaiting]
  | finish x =>
    obtain ⟨hserving, h⟩ := Option.ite_none_right_eq_some.1 h
    obtain rfl := Option.some.inj h
    simp [Event.starts, Event.puts, Event.finishes, hserving]

variable [DecidableEq κ] (key : β → κ)

/-- **All lanes**: an event changes the lane of its item. -/
def lanes : Machine (κ → Lane β) (Event β) where
  step := fun l e => ((l (key e.item)).step e).map (Function.update l (key e.item))

variable {key} {l l' : κ → Lane β} {es : List (Event β)}

/-- **One event, by the lanes before and after it.** -/
theorem run_singleton {e : Event β} (hown : (l (key e.item)).step e = some (l' (key e.item)))
    (hother : ∀ k, k ≠ key e.item → l' k = l k) : (lanes key).run l [e] = some l' := by
  have hupdate : Function.update l (key e.item) (l' (key e.item)) = l' := by
    funext k
    by_cases hk : k = key e.item
    · subst hk
      simp
    · simp [hk, hother k hk]
  simp [Machine.run, lanes, hown, hupdate]

/-- What an event does to a lane, its own or another. -/
theorem lanes_step_eq {e : Event β} (h : (lanes key).step l e = some l') (k : κ) :
    ofKey key k e.starts ++ (l' k).waiting = (l k).waiting ++ ofKey key k e.puts ∧
      ofKey key k e.finishes ++ (l' k).serving.toList =
        (l k).serving.toList ++ ofKey key k e.starts := by
  obtain ⟨mid, hmid, rfl⟩ := Option.map_eq_some_iff.1 h
  by_cases hk : k = key e.item
  · subst hk
    have hown := step_eq hmid
    cases e <;> simpa [ofKey, Event.item, Event.starts, Event.puts, Event.finishes] using hown
  · have hne : key e.item ≠ k := fun h => hk h.symm
    cases e <;>
      simp_all [ofKey, Event.item, Event.starts, Event.puts, Event.finishes]

/-- **What a run does to a lane.** -/
theorem run_eq (hrun : (lanes key).run l es = some l') (k : κ) :
    ofKey key k (es.flatMap Event.starts) ++ (l' k).waiting =
        (l k).waiting ++ ofKey key k (es.flatMap Event.puts) ∧
      ofKey key k (es.flatMap Event.finishes) ++ (l' k).serving.toList =
        (l k).serving.toList ++ ofKey key k (es.flatMap Event.starts) := by
  induction es generalizing l with
  | nil =>
    obtain rfl : l = l' := by simpa [Machine.run] using hrun
    simp [ofKey]
  | cons e es ih =>
    obtain ⟨mid, hmid, hrest⟩ := Machine.run_cons_eq_some_iff.1 hrun
    obtain ⟨hstart, hfinish⟩ := lanes_step_eq hmid k
    obtain ⟨hstarts, hfinishes⟩ := ih hrest
    simp only [List.flatMap_cons, ofKey_append, List.append_assoc]
    -- the event's items come before those of the rest of the run
    constructor
    · rw [hstarts, ← List.append_assoc, hstart, List.append_assoc]
    · rw [hfinishes, ← List.append_assoc, hfinish, List.append_assoc]

end Machine

end Lane

end Nrpc

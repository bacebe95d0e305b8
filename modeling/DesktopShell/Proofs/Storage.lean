import DesktopShell.Proofs.Text
import DesktopShell.Storage
import Mathlib.Data.List.Basic
import Mathlib.Data.List.Forall2

/-!
# What stores keep

A stamp is computed apart from the word that remembers it, from what the word was before
and the same time, and comes to the same (`takeStamp_eq`). So whatever the clock shows,
each stamp is past all earlier ones, until one is the largest word (`stamps_grow`).

A store in memory keeps one envelope for each name: after a save it is the one that was
saved (`Store.load_insert`), after a deletion there is none, and envelopes under other names
are left as they are. Whatever was saved, deleted and loaded by any handles of a store and
of others, what a store keeps under a name is what the last request wrote that was made by a
handle of that store and wrote under that name (`Shelf.Told.kept`). So a load depends on
nothing but that one envelope, if there is one (`Shelf.Reached.loads_last`).
-/
namespace DesktopShell

theorem le_nextStamp (last now : UInt64) : now ≤ nextStamp last now := Std.left_le_max

theorem next_le_nextStamp (last now : UInt64) : Counter.next last ≤ nextStamp last now := Std.right_le_max

theorem takeStamp_eq (last now : UInt64) : takeStamp last now = (nextStamp last now, nextStamp last now) := rfl

/-- A stamp is past what the shared word was before it, and so are all later ones. -/
theorem next_le_of_mem_takeStamps {last : UInt64} {readings : List UInt64} {taken : UInt64 × UInt64}
    (member : taken ∈ takeStamps last readings) : Counter.next last ≤ taken.2 := by
  induction readings generalizing last with
  | nil => exact absurd member List.not_mem_nil
  | cons now later ih =>
    rw [takeStamps, takeStamp_eq] at member
    rcases List.mem_cons.mp member with rfl | after
    · exact next_le_nextStamp last now
    · calc
        Counter.next last ≤ nextStamp last now := next_le_nextStamp last now
        _ ≤ Counter.next (nextStamp last now) := Counter.le_next _
        _ ≤ taken.2 := ih after

/-- A word is below whatever is not below its successor, unless it is the largest. -/
theorem Counter.lt_iff_ne_top {m n : UInt64} (past : next m ≤ n) : m < n ↔ m ≠ top := by
  constructor
  · exact ne_top_of_lt
  · intro below
    exact UInt64.lt_of_lt_of_le (lt_next_of_ne_top below) past

theorem pairwise_takeStamps (last : UInt64) (readings : List UInt64) :
    (last :: (takeStamps last readings).map (·.2)).Pairwise fun earlier later =>
      earlier < later ↔ earlier ≠ Counter.top := by
  induction readings generalizing last with
  | nil => exact List.pairwise_singleton _ _
  | cons now later ih =>
    refine List.pairwise_cons.mpr ⟨?_, ih _⟩
    intro stamp member
    obtain ⟨taken, among, rfl⟩ := List.mem_map.mp member
    exact Counter.lt_iff_ne_top (next_le_of_mem_takeStamps among)

/-- A stamp is not before the time that it was taken at, and the shared word is left at it. -/
theorem forall₂_takeStamps (last : UInt64) (readings : List UInt64) :
    List.Forall₂ (fun now taken => now ≤ taken.2 ∧ taken.2 = taken.1) readings (takeStamps last readings) := by
  induction readings generalizing last with
  | nil => exact .nil
  | cons now later ih =>
    refine .cons ⟨?_, ?_⟩ (ih _)
    · exact le_nextStamp last now
    · rw [takeStamp_eq]

/-- Whatever a clock shows when stamps are taken one after another, each stamp is at least the time that was shown for
    it, and the shared word is left at it. Each one is greater than any before it and than what the word was at the
    beginning exactly when that one is not the largest word; so as long as no stamp is the largest word, the stamps
    ascend. -/
theorem stamps_grow (last : UInt64) (readings : List UInt64) :
    List.Forall₂ (fun now taken => now ≤ taken.2 ∧ taken.2 = taken.1) readings (takeStamps last readings) ∧
      let stamps := (takeStamps last readings).map (·.2)
      (last :: stamps).Pairwise (fun earlier later => earlier < later ↔ earlier ≠ Counter.top) ∧
        ((∀ stamp ∈ stamps, stamp ≠ Counter.top) → stamps.Pairwise (· < ·)) := by
  refine ⟨forall₂_takeStamps last readings, pairwise_takeStamps last readings, ?_⟩
  intro below
  have grows := (List.pairwise_cons.mp (pairwise_takeStamps last readings)).2
  refine grows.imp_of_mem ?_
  intro earlier later member _ grown
  exact grown.mpr (below earlier member)

/-- The clock stands still, goes back and jumps. -/
theorem stamps_grow_jumping :
    let stamps := (takeStamps 0 [5, 5, 3, 900, 0]).map (·.2)
    stamps = [5, 6, 7, 900, 901] ∧ (∀ stamp ∈ stamps, stamp ≠ Counter.top) ∧ stamps.Pairwise (· < ·) := by
  intro stamps
  have shown : stamps = [5, 6, 7, 900, 901] := by decide
  have below : ∀ stamp ∈ stamps, stamp ≠ Counter.top := by simp [shown, Counter.top]
  exact ⟨shown, below, (stamps_grow 0 [5, 5, 3, 900, 0]).2.2 below⟩

namespace Store

theorem find?_insert (e : Envelope) (envelopes : List Envelope) (name : String) :
    (insert e envelopes).find? (fun kept => kept.name = name) =
      if e.name = name then some e else envelopes.find? fun kept => kept.name = name :=
  find?_insertByKey e envelopes name

/-- Envelopes under other names stay as they are. -/
theorem filter_insert (e : Envelope) (envelopes : List Envelope) :
    (insert e envelopes).filter (fun kept => kept.name ≠ e.name) = envelopes.filter fun kept => kept.name ≠ e.name :=
  filter_insertByKey e envelopes

theorem find?_delete (envelopes : List Envelope) (deleted name : String) :
    (envelopes.filter fun e => e.name ≠ deleted).find? (fun kept => kept.name = name) =
      if deleted = name then none else envelopes.find? fun kept => kept.name = name := by
  by_cases own : deleted = name
  · simp [own]
  · rw [if_neg own, List.find?_filter]
    congr 1
    funext e
    by_cases found : e.name = name <;> simp [found, Ne.symm own]

/-- What is saved in memory is loaded under its name. -/
theorem load_insert (e : Envelope) (envelopes : List Envelope) :
    (memory (insert e envelopes)).load e.name = .ok (some e) := by
  simp [load, find?_insert]

/-- A source has nothing under a name but this envelope, if it has anything and does not fail. -/
def Source.HasAtMost (source : Source) (name : String) (e : Envelope) : Prop :=
  ∀ other, source name = .ok (some other) → other = e

theorem hasAtMost_of_save {store kept : Store} {e : Envelope} (saved : store.save e = .ok kept) :
    Source.HasAtMost kept.load e.name e := by
  intro other found
  cases store with
  | memory envelopes =>
    cases saved
    rw [load_insert] at found
    cases found
    rfl
  | discarding =>
    cases saved
    cases found
  | offline reason => cases saved

section
variable {α : Type} {source : Source} {name : String} {e : Envelope} (kept : source name = .ok (some e))
  {current : UInt32} (read : Json → Option α) (migrate : Envelope → Except LoadFault (Option α))
include kept

/-- An envelope of another format or of a newer version counts as absent. -/
theorem loadFrom_of_unreadable (unreadable : e.format ≠ Envelope.currentFormat ∨ current < e.schema) :
    loadFrom source name current read migrate = .ok none := by
  rcases unreadable with foreign | newer
  · simp only [loadFrom, kept, if_pos foreign]
  · have apart : e.schema ≠ current := fun same => UInt32.lt_irrefl _ (same ▸ newer)
    simp only [loadFrom, kept, if_neg apart, if_pos newer, ite_self]

/-- An envelope of the version that is wanted is read as it is. -/
theorem loadFrom_of_same (own : e.format = Envelope.currentFormat) (same : e.schema = current) :
    loadFrom source name current read migrate =
      match read e.payload with
      | some value => .ok (some value)
      | none => .error .payload := by
  cases value : read e.payload <;> simp only [loadFrom, kept, if_neg (not_not_intro own), if_pos same, value]

/-- An envelope of an older version is left to the migration. -/
theorem loadFrom_of_older (own : e.format = Envelope.currentFormat) (older : e.schema < current) :
    loadFrom source name current read migrate = migrate e := by
  have apart : e.schema ≠ current := fun same => UInt32.lt_irrefl _ (same ▸ older)
  simp only [loadFrom, kept, if_neg (not_not_intro own), if_neg apart, if_neg (UInt32.lt_asymm older)]

end

/-- What a request writes under a name, if it writes: an envelope, or none when it deletes. -/
def Request.writes? (name : String) : Request → Option (Option Envelope)
  | .save e => if e.name = name then some (some e) else none
  | .saveAs owner schema (.ok payload) stamp =>
    if owner = name then some (some (.make owner schema payload stamp)) else none
  | .saveAs _ _ (.error _) _ => none
  | .delete owner => if owner = name then some none else none
  | .load _ _ => none

/-- After a request a store in memory keeps what the request wrote and, where it did not write, what it kept
    before. -/
theorem find?_after (envelopes : List Envelope) (request : Request) : ∃ kept,
    (memory envelopes).after request = memory kept ∧ ∀ name, kept.find? (fun e => e.name = name) =
      (request.writes? name).getD (envelopes.find? fun e => e.name = name) := by
  cases request with
  | save e =>
    refine ⟨insert e envelopes, rfl, ?_⟩
    intro name
    rw [find?_insert]
    by_cases own : e.name = name <;> simp [Request.writes?, own]
  | saveAs owner schema payload stamp =>
    cases payload with
    | error reason => exact ⟨envelopes, rfl, fun name => rfl⟩
    | ok json =>
      refine ⟨insert (.make owner schema json stamp) envelopes, rfl, ?_⟩
      intro name
      rw [find?_insert]
      by_cases own : owner = name <;> simp [Request.writes?, Envelope.make, own]
  | delete owner =>
    refine ⟨envelopes.filter fun e => e.name ≠ owner, rfl, ?_⟩
    intro name
    rw [find?_delete]
    by_cases own : owner = name <;> simp [Request.writes?, own]
  | load owner current => exact ⟨envelopes, rfl, fun name => rfl⟩

end Store

namespace Shelf

/-- Stores and handles after calls from the beginning, each by a handle that there is. -/
inductive Reached : List Call → Shelf → Prop
  | start : Reached [] empty
  | step {calls s} (call : Call) : Reached calls s → (∀ handle ∈ call.handle?, handle < s.handles.length) →
      Reached (calls ++ [call]) (s.step call)

/-- What a call writes under a name of the store at a place. -/
def Call.writes? (handles : List Nat) (place : Nat) (name : String) : Call → Option (Option Envelope)
  | .ask handle request => if handles[handle]? = some place then request.writes? name else none
  | _ => none

/-- What the last call that writes under a name of the store at a place writes there. -/
def lastWritten? (handles : List Nat) (place : Nat) (name : String) (calls : List Call) : Option (Option Envelope) :=
  (calls.filterMap (Call.writes? handles place name)).getLast?

theorem lastWritten?_append_singleton (handles : List Nat) (place : Nat) (name : String) (calls : List Call)
    (call : Call) : lastWritten? handles place name (calls ++ [call]) =
      (call.writes? handles place name).or (lastWritten? handles place name calls) := by
  unfold lastWritten?
  rw [List.filterMap_append, List.getLast?_append]
  cases written : call.writes? handles place name <;> simp [written]

/-- Calls by handles that there were write alike when there is one handle more. -/
theorem lastWritten?_handle {handles : List Nat} {calls : List Call}
    (known : ∀ call ∈ calls, ∀ handle ∈ call.handle?, handle < handles.length) (new place : Nat) (name : String) :
    lastWritten? (handles ++ [new]) place name calls = lastWritten? handles place name calls := by
  unfold lastWritten?
  congr 1
  apply List.filterMap_congr
  intro call member
  cases call with
  | ask handle request =>
    have before := known _ member handle rfl
    simp only [Call.writes?, List.getElem?_append_left before]
  | _ => rfl

/-- A store that no handle reaches was never written to. -/
theorem lastWritten?_of_unreached {handles : List Nat} {place : Nat} (unreached : place ∉ handles) (name : String)
    (calls : List Call) : lastWritten? handles place name calls = none := by
  have silent : calls.filterMap (Call.writes? handles place name) = [] := by
    rw [List.filterMap_eq_nil_iff]
    intro call _
    cases call with
    | ask handle request =>
      have other : handles[handle]? ≠ some place := fun on => unreached (List.mem_of_getElem? on)
      simp only [Call.writes?, if_neg other]
    | _ => rfl
  rw [lastWritten?, silent, List.getLast?_nil]

/-- What holds of stores after calls: each keeps under every name what was written there last. -/
structure Told (calls : List Call) (s : Shelf) : Prop where
  places : ∀ place ∈ s.handles, place < s.stores.length
  handles : ∀ call ∈ calls, ∀ handle ∈ call.handle?, handle < s.handles.length
  kept : ∀ place store, s.stores[place]? = some store → ∃ envelopes, store = .memory envelopes ∧
    ∀ name, envelopes.find? (fun e => e.name = name) = (lastWritten? s.handles place name calls).join

namespace Told
variable {calls : List Call} {s : Shelf}

theorem start : Told [] empty := by
  refine ⟨by simp [empty], by simp, ?_⟩
  intro place store nothing
  simp [empty] at nothing

private theorem known (told : Told calls s) {call : Call} (knows : ∀ handle ∈ call.handle?, handle < s.handles.length)
    {next : List Nat} (longer : s.handles.length ≤ next.length) :
    ∀ made ∈ calls ++ [call], ∀ handle ∈ made.handle?, handle < next.length := by
  intro made member handle used
  rcases List.mem_append.mp member with before | new
  · exact Nat.lt_of_lt_of_le (told.handles made before handle used) longer
  · obtain rfl := List.mem_singleton.mp new
    exact Nat.lt_of_lt_of_le (knows handle used) longer

theorem create (told : Told calls s) : Told (calls ++ [.create]) (s.step .create) := by
  refine ⟨?_, told.known (by simp [Call.handle?]) (by simp [step]), ?_⟩
  · intro place member
    simp only [step, List.length_append, List.length_singleton]
    rcases List.mem_append.mp member with old | new
    · have before := told.places place old
      omega
    · rw [List.mem_singleton.mp new]
      omega
  · intro place store found
    simp only [step, lastWritten?_append_singleton, Call.writes?, Option.none_or] at found ⊢
    simp only [lastWritten?_handle told.handles]
    by_cases old : place < s.stores.length
    · rw [List.getElem?_append_left old] at found
      exact told.kept place store found
    · have unreached : place ∉ s.handles := fun member => old (told.places place member)
      rw [List.getElem?_append_right (by omega), List.getElem?_singleton] at found
      obtain rfl : Store.memory [] = store := by
        split at found
        · exact Option.some.inj found
        · cases found
      refine ⟨[], rfl, ?_⟩
      intro name
      rw [lastWritten?_of_unreached unreached]
      rfl

theorem copy (told : Told calls s) {handle : Nat} (knows : handle < s.handles.length) :
    Told (calls ++ [.copy handle]) (s.step (.copy handle)) := by
  have reaches : s.step (.copy handle) = { s with handles := s.handles ++ [s.handles[handle]] } := by
    simp only [step, List.getElem?_eq_getElem knows]
  rw [reaches]
  refine ⟨?_, told.known (by simpa [Call.handle?] using knows) (by simp), ?_⟩
  · intro place member
    rcases List.mem_append.mp member with old | new
    · exact told.places place old
    · rw [List.mem_singleton.mp new]
      exact told.places _ (List.getElem_mem knows)
  · intro place store found
    simp only [lastWritten?_append_singleton, Call.writes?, Option.none_or, lastWritten?_handle told.handles]
    exact told.kept place store found

theorem ask (told : Told calls s) {handle : Nat} (knows : handle < s.handles.length) (request : Store.Request) :
    Told (calls ++ [.ask handle request]) (s.step (.ask handle request)) := by
  have reaches : s.handles[handle]? = some s.handles[handle] := List.getElem?_eq_getElem knows
  have asked : s.step (.ask handle request) =
      { s with stores := s.stores.modify s.handles[handle] fun store => store.after request } := by
    simp only [step, reaches]
  rw [asked]
  refine ⟨?_, told.known (by simpa [Call.handle?] using knows) (Nat.le_refl _), ?_⟩
  · intro place member
    simpa using told.places place member
  · intro place store found
    simp only [List.getElem?_modify, Option.map_eq_map, Option.map_eq_some_iff] at found
    obtain ⟨before, there, rfl⟩ := found
    obtain ⟨envelopes, rfl, kept⟩ := told.kept place before there
    simp only [lastWritten?_append_singleton, Call.writes?, reaches, Option.some.injEq]
    by_cases own : s.handles[handle] = place
    · obtain ⟨next, after, wrote⟩ := Store.find?_after envelopes request
      refine ⟨next, by simp only [if_pos own, after], ?_⟩
      intro name
      rw [wrote, kept, if_pos own]
      cases request.writes? name <;> rfl
    · exact ⟨envelopes, by simp only [if_neg own], fun name => by simp only [if_neg own, Option.none_or, kept]⟩

end Told

theorem Reached.told {calls : List Call} {s : Shelf} (run : Reached calls s) : Told calls s := by
  induction run with
  | start => exact .start
  | step call _ knows ih =>
    cases call with
    | create => exact ih.create
    | copy handle => exact ih.copy (knows handle rfl)
    | ask handle request => exact ih.ask (knows handle rfl) request

end Shelf

end DesktopShell

import LumenCopilot.Construction.Chat.Stream
import LumenCopilot.Proof.Library.Dict
import LumenCopilot.Proof.Library.Partial
import LumenCopilot.Proof.Python.Loads
import LumenCopilot.Proof.Python.Numerals

namespace LumenCopilot.Chat

open Python Library

/-- The accumulators of these fragments, in index order. -/
structure Accumulated (fragments : List Fragment) (calls : List (Nat × ToolCall)) : Prop where
  ascending : calls.Pairwise fun first second => first.1 < second.1
  held : ∀ index call, (index, call) ∈ calls ↔
    (∃ fragment ∈ fragments, fragment.index = index) ∧
      call = (fragments.filter fun fragment => fragment.index = index).foldl ToolCall.feed {}

/-- The fragments determine the accumulators. -/
theorem Accumulated.unique {fragments : List Fragment} {calls others : List (Nat × ToolCall)}
    (accumulated : Accumulated fragments calls) (other : Accumulated fragments others) :
    calls = others := by
  have distinct {items : List (Nat × ToolCall)}
      (ascending : items.Pairwise fun first second => first.1 < second.1) : items.Nodup :=
    ascending.imp fun below same => by rw [same] at below; exact Nat.lt_irrefl _ below
  have permuted : calls.Perm others := by
    apply (List.perm_ext_iff_of_nodup (distinct accumulated.ascending)
      (distinct other.ascending)).mpr
    rintro ⟨index, call⟩
    rw [accumulated.held, other.held]
  apply List.Perm.eq_of_pairwise _ accumulated.ascending other.ascending permuted
  intro first second _ _ below above
  omega

theorem Accumulated.nil : Accumulated [] [] := by
  constructor
  · exact List.Pairwise.nil
  · intro index call
    constructor
    · nofun
    · rintro ⟨⟨_, member, _⟩, _⟩
      cases member

/-- An accumulator is fed or started, and every other one stays. -/
theorem mem_accumulateToolCall {calls : List (Nat × ToolCall)} (fragment : Fragment)
    (ascending : calls.Pairwise fun first second => first.1 < second.1) (index : Nat)
    (call : ToolCall) :
    (index, call) ∈ accumulateToolCall fragment calls ↔
      index ≠ fragment.index ∧ (index, call) ∈ calls ∨
      index = fragment.index ∧ ((∃ old, (index, old) ∈ calls ∧ call = old.feed fragment) ∨
        (∀ old, (index, old) ∉ calls) ∧ call = ToolCall.feed {} fragment) := by
  induction calls with
  | nil =>
      simp only [accumulateToolCall, List.mem_singleton, Prod.mk.injEq, List.not_mem_nil, and_false,
        false_or, false_and, exists_false, not_false_eq_true, implies_true, true_and]
  | cons head rest ih =>
      obtain ⟨place, first⟩ := head
      obtain ⟨above, ascending⟩ := List.pairwise_cons.mp ascending
      have absent {other : Nat} {old : ToolCall} (known : (other, old) ∈ rest) : place < other :=
        above _ known
      unfold accumulateToolCall
      split
      · next before =>
          have fresh : ∀ old, (fragment.index, old) ∉ (place, first) :: rest := by
            intro old member
            rcases List.mem_cons.mp member with same | later
            · rw [Prod.mk.injEq] at same
              omega
            · have below := absent later
              omega
          rw [List.mem_cons, Prod.mk.injEq]
          constructor
          · rintro (⟨rfl, rfl⟩ | member)
            · exact Or.inr ⟨rfl, Or.inr ⟨fresh, rfl⟩⟩
            · apply Or.inl
              refine ⟨?_, member⟩
              rintro rfl
              exact fresh call member
          · rintro (⟨_, member⟩ | ⟨rfl, ⟨old, member, _⟩ | ⟨_, rfl⟩⟩)
            · exact Or.inr member
            · exact absurd member (fresh old)
            · exact Or.inl ⟨rfl, rfl⟩
      · next notBefore =>
          split
          · next here =>
              subst here
              rw [List.mem_cons, Prod.mk.injEq]
              constructor
              · rintro (⟨rfl, rfl⟩ | member)
                · exact Or.inr ⟨rfl, Or.inl ⟨first, List.mem_cons_self, rfl⟩⟩
                · have below := absent member
                  exact Or.inl ⟨by omega, List.mem_cons_of_mem _ member⟩
              · rintro (⟨other, member⟩ | ⟨rfl, ⟨old, member, rfl⟩ | ⟨fresh, _⟩⟩)
                · rcases List.mem_cons.mp member with same | later
                  · rw [Prod.mk.injEq] at same
                    exact absurd same.1 other
                  · exact Or.inr later
                · rcases List.mem_cons.mp member with same | later
                  · rw [Prod.mk.injEq] at same
                    rw [same.2]
                    exact Or.inl ⟨rfl, rfl⟩
                  · exact absurd (absent later) (Nat.lt_irrefl _)
                · exact absurd List.mem_cons_self (fresh first)
          · next apart =>
              rw [List.mem_cons, ih ascending]
              simp only [List.mem_cons, Prod.mk.injEq]
              constructor
              · rintro (⟨rfl, rfl⟩ | ⟨other, member⟩ | ⟨rfl, ⟨old, member, rfl⟩ | ⟨fresh, rfl⟩⟩)
                · exact Or.inl ⟨fun same => apart same.symm, Or.inl ⟨rfl, rfl⟩⟩
                · exact Or.inl ⟨other, Or.inr member⟩
                · exact Or.inr ⟨rfl, Or.inl ⟨old, Or.inr member, rfl⟩⟩
                · refine Or.inr ⟨rfl, Or.inr ⟨?_, rfl⟩⟩
                  rintro old (⟨same, _⟩ | member)
                  · exact apart same
                  · exact fresh old member
              · rintro (⟨other, ⟨rfl, rfl⟩ | member⟩ |
                  ⟨rfl, ⟨old, ⟨same, _⟩ | member, rfl⟩ | ⟨fresh, rfl⟩⟩)
                · exact Or.inl ⟨rfl, rfl⟩
                · exact Or.inr (Or.inl ⟨other, member⟩)
                · exact absurd same apart
                · exact Or.inr (Or.inr ⟨rfl, Or.inl ⟨old, member, rfl⟩⟩)
                · exact Or.inr (Or.inr ⟨rfl, Or.inr ⟨fun old member => fresh old (Or.inr member), rfl⟩⟩)

theorem accumulateToolCall_ascending {calls : List (Nat × ToolCall)} (fragment : Fragment)
    (ascending : calls.Pairwise fun first second => first.1 < second.1) :
    (accumulateToolCall fragment calls).Pairwise fun first second => first.1 < second.1 := by
  induction calls with
  | nil => exact List.pairwise_singleton _ _
  | cons head rest ih =>
      obtain ⟨place, first⟩ := head
      obtain ⟨above, later⟩ := List.pairwise_cons.mp ascending
      unfold accumulateToolCall
      split
      · next before =>
          apply List.Pairwise.cons _ ascending
          intro other member
          rcases List.mem_cons.mp member with rfl | known
          · exact before
          · exact before.trans (above other known)
      · next notBefore =>
          split
          · exact List.Pairwise.cons above later
          · next apart =>
              apply List.Pairwise.cons _ (ih later)
              rintro ⟨index, call⟩ member
              rcases (mem_accumulateToolCall fragment later index call).mp member with
                ⟨_, known⟩ | ⟨rfl, _⟩
              · exact above _ known
              · show place < fragment.index
                omega

/-- The fragments of an index after one more. -/
theorem foldl_feed_snoc (fragments : List Fragment) (fragment : Fragment) (index : Nat) :
    ((fragments ++ [fragment]).filter fun listed => listed.index = index).foldl ToolCall.feed {} =
      if fragment.index = index then
        ((fragments.filter fun listed => listed.index = index).foldl ToolCall.feed {}).feed fragment
      else (fragments.filter fun listed => listed.index = index).foldl ToolCall.feed {} := by
  rw [List.filter_append]
  split
  · next same =>
      rw [List.filter_cons_of_pos (by simpa using same), List.foldl_append]
      rfl
  · next other =>
      rw [List.filter_cons_of_neg (by simpa using other), List.filter_nil, List.append_nil]

theorem foldl_feed_absent {fragments : List Fragment} {index : Nat}
    (absent : ¬ ∃ fragment ∈ fragments, fragment.index = index) :
    (fragments.filter fun fragment => fragment.index = index).foldl ToolCall.feed {} = {} := by
  have none : fragments.filter (fun fragment => fragment.index = index) = [] := by
    apply List.filter_eq_nil_iff.mpr
    intro fragment member same
    exact absent ⟨fragment, member, of_decide_eq_true same⟩
  rw [none]
  rfl

/-- The listed accumulators take one more fragment. -/
theorem Accumulated.snoc {fragments : List Fragment} {calls : List (Nat × ToolCall)}
    (accumulated : Accumulated fragments calls) (fragment : Fragment) :
    Accumulated (fragments ++ [fragment]) (accumulateToolCall fragment calls) := by
  constructor
  · exact accumulateToolCall_ascending fragment accumulated.ascending
  · intro index call
    rw [mem_accumulateToolCall fragment accumulated.ascending, foldl_feed_snoc]
    simp only [accumulated.held, List.mem_append, List.mem_singleton]
    by_cases same : fragment.index = index
    · subst same
      rw [if_pos rfl]
      constructor
      · rintro (⟨apart, _⟩ | ⟨_, ⟨old, ⟨_, rfl⟩, rfl⟩ | ⟨fresh, rfl⟩⟩)
        · exact absurd rfl apart
        · exact ⟨⟨fragment, Or.inr rfl, rfl⟩, rfl⟩
        · refine ⟨⟨fragment, Or.inr rfl, rfl⟩, ?_⟩
          rw [foldl_feed_absent fun listed => fresh _ ⟨listed, rfl⟩]
      · rintro ⟨_, rfl⟩
        apply Or.inr
        refine ⟨rfl, ?_⟩
        by_cases listed : ∃ other ∈ fragments, other.index = fragment.index
        · exact Or.inl ⟨_, ⟨listed, rfl⟩, rfl⟩
        · rw [foldl_feed_absent listed]
          exact Or.inr ⟨fun _ known => listed known.1, rfl⟩
    · rw [if_neg same]
      constructor
      · rintro (⟨_, ⟨other, member, named⟩, rfl⟩ | ⟨equal, _⟩)
        · exact ⟨⟨other, Or.inl member, named⟩, rfl⟩
        · exact absurd equal.symm same
      · rintro ⟨⟨other, member | rfl, named⟩, rfl⟩
        · exact Or.inl ⟨fun equal => same equal.symm, ⟨other, member, named⟩, rfl⟩
        · exact absurd named same

theorem foldl_accumulateToolCall {fragments : List Fragment} {calls : List (Nat × ToolCall)}
    (accumulated : Accumulated fragments calls) (more : List Fragment) :
    Accumulated (fragments ++ more)
      (more.foldl (fun calls fragment => accumulateToolCall fragment calls) calls) := by
  induction more generalizing fragments calls with
  | nil =>
      rw [List.append_nil]
      exact accumulated
  | cons fragment more ih =>
      rw [List.append_cons]
      exact ih (accumulated.snoc fragment)

/-- The dictionary of accumulators. -/
theorem lookup_foldl_accumulate (fragments : List Fragment) (index : Nat) :
    (fragments.foldl accumulate ∅).lookup index =
      if ∃ fragment ∈ fragments, fragment.index = index then
        some ((fragments.filter fun fragment => fragment.index = index).foldl ToolCall.feed {})
      else none := by
  induction fragments using List.reverseRecOn with
  | nil => rfl
  | append_singleton fragments fragment ih =>
      rw [List.foldl_append, List.foldl_cons, List.foldl_nil, foldl_feed_snoc]
      rw [accumulate, Dict.lookup_assigned]
      by_cases same : fragment.index = index
      · subst same
        have last : ∃ other ∈ fragments ++ [fragment], other.index = fragment.index :=
          ⟨fragment, List.mem_append_right _ List.mem_cons_self, rfl⟩
        rw [if_pos rfl, if_pos rfl, if_pos last, ih]
        by_cases listed : ∃ other ∈ fragments, other.index = fragment.index
        · rw [if_pos listed, Option.getD_some]
        · rw [if_neg listed, foldl_feed_absent listed, Option.getD_none]
      · have apart : ¬ index = fragment.index := fun equal => same equal.symm
        have members : (∃ other ∈ fragments ++ [fragment], other.index = index) ↔
            ∃ other ∈ fragments, other.index = index := by
          constructor
          · rintro ⟨other, member, named⟩
            rcases List.mem_append.mp member with known | last
            · exact ⟨other, known, named⟩
            · rw [List.mem_singleton.mp last] at named
              exact absurd named same
          · rintro ⟨other, member, named⟩
            exact ⟨other, List.mem_append_left _ member, named⟩
        simp only [if_neg apart, if_neg same, members, ih]

/-- The sorted items of the dictionary are the accumulators that are kept in index order. -/
theorem sortedItems_accumulate (fragments : List Fragment) :
    sortedItems (fragments.foldl accumulate ∅) =
      fragments.foldl (fun calls fragment => accumulateToolCall fragment calls) [] := by
  have listed := foldl_accumulateToolCall Accumulated.nil fragments
  rw [List.nil_append] at listed
  apply Accumulated.unique _ listed
  constructor
  · have below := sortedBy_pairwise Prod.fst ((fragments.foldl accumulate ∅).entries.map
      fun entry => (entry.1, entry.2))
    have distinct : ((sortedItems (fragments.foldl accumulate ∅)).map Prod.fst).Nodup := by
      have permuted := (sortedBy_perm Prod.fst ((fragments.foldl accumulate ∅).entries.map
        fun entry => (entry.1, entry.2))).map Prod.fst
      apply permuted.nodup_iff.mpr
      rw [List.map_map]
      exact (fragments.foldl accumulate ∅).nodupKeys
    have apart := List.pairwise_map.mp distinct
    exact (below.and apart).imp fun both => lt_of_le_of_ne both.1 both.2
  · intro index call
    have known : (index, call) ∈ sortedItems (fragments.foldl accumulate ∅) ↔
        (fragments.foldl accumulate ∅).lookup index = some call := by
      rw [Dict.lookup_eq_some_iff, sortedItems, mem_sortedBy, List.mem_map]
      constructor
      · rintro ⟨entry, member, same⟩
        rw [Prod.mk.injEq] at same
        rw [← same.1, ← same.2]
        exact member
      · intro member
        exact ⟨_, member, rfl⟩
    rw [known, lookup_foldl_accumulate]
    split
    · next present =>
        rw [Option.some.injEq]
        constructor
        · intro equal
          exact ⟨present, equal.symm⟩
        · intro both
          exact both.2.symm
    · next missing =>
        constructor
        · intro equal
          cases equal
        · intro both
          exact absurd both.1 missing

/-- A tool call of a provider, with its arguments as a text and as an object. -/
structure StreamedCall where
  index : Nat
  id : Text
  name : Text
  text : Text
  arguments : List (Text × Json)

/-- The fragments of one call: its id and its name arrive whole, its text in pieces. -/
structure Splits (call : StreamedCall) (fragments : List Fragment) : Prop where
  ids : ∀ fragment ∈ fragments, fragment.id = [] ∨ fragment.id = call.id
  names : ∀ fragment ∈ fragments, fragment.name = [] ∨ fragment.name = call.name
  identified : ∃ fragment ∈ fragments, fragment.id = call.id
  named : ∃ fragment ∈ fragments, fragment.name = call.name
  text : fragments.flatMap Fragment.arguments = call.text

/-- The fragments of the calls arrive in any order that keeps the order of each call. -/
structure Interleaves (calls : List StreamedCall) (fragments : List Fragment) : Prop where
  known : ∀ fragment ∈ fragments, ∃ call ∈ calls, fragment.index = call.index
  split : ∀ call ∈ calls, Splits call (fragments.filter fun fragment => fragment.index = call.index)

theorem foldl_feed_arguments (fragments : List Fragment) (call : ToolCall) :
    (fragments.foldl ToolCall.feed call).arguments =
      call.arguments ++ fragments.flatMap Fragment.arguments := by
  induction fragments generalizing call with
  | nil => exact (List.append_nil _).symm
  | cons fragment fragments ih =>
      rw [List.foldl_cons, ih, List.flatMap_cons, ← List.append_assoc]
      rfl

/-- A field that arrives whole at least once is kept. -/
theorem foldl_feed_field {field : ToolCall → Text} {part : Fragment → Text} {whole : Text}
    (feeds : ∀ call fragment, field (ToolCall.feed call fragment) =
      if (part fragment).isEmpty then field call else part fragment)
    {fragments : List Fragment} (each : ∀ fragment ∈ fragments, part fragment = [] ∨ part fragment = whole)
    {call : ToolCall}
    (arrives : field call = whole ∨ whole ≠ [] ∧ ∃ fragment ∈ fragments, part fragment = whole) :
    field (fragments.foldl ToolCall.feed call) = whole := by
  induction fragments generalizing call with
  | nil =>
      rcases arrives with here | ⟨_, _, member, _⟩
      · exact here
      · cases member
  | cons fragment fragments ih =>
      have later := fun other member => each other (List.mem_cons_of_mem fragment member)
      apply ih later
      rw [feeds]
      rcases each fragment List.mem_cons_self with empty | equal
      · rw [empty, List.isEmpty_nil, if_pos rfl]
        rcases arrives with here | ⟨filled, other, member, found⟩
        · exact Or.inl here
        · rcases List.mem_cons.mp member with rfl | member
          · exact absurd (found.symm.trans empty) filled
          · exact Or.inr ⟨filled, other, member, found⟩
      · apply Or.inl
        rw [equal]
        split
        · next vanishes =>
            have nothing := List.isEmpty_iff.mp vanishes
            rcases arrives with here | ⟨filled, _⟩
            · exact here
            · exact absurd nothing filled
        · rfl

/-- The fragments of a call are put together to the call. -/
theorem Splits.fed {call : StreamedCall} {fragments : List Fragment} (splits : Splits call fragments) :
    fragments.foldl ToolCall.feed {} = ⟨call.id, call.name, call.text⟩ := by
  have starts (part : Fragment → Text) (whole : Text)
      (arrives : ∃ fragment ∈ fragments, part fragment = whole) :
      ([] : Text) = whole ∨ whole ≠ [] ∧ ∃ fragment ∈ fragments, part fragment = whole := by
    by_cases empty : whole = []
    · exact Or.inl empty.symm
    · exact Or.inr ⟨empty, arrives⟩
  have identified := @foldl_feed_field ToolCall.id _ _ (fun _ _ => rfl) _ splits.ids {}
    (starts Fragment.id call.id splits.identified)
  have named := @foldl_feed_field ToolCall.name _ _ (fun _ _ => rfl) _ splits.names {}
    (starts Fragment.name call.name splits.named)
  have arguments := foldl_feed_arguments fragments {}
  rw [splits.text, List.nil_append] at arguments
  calc fragments.foldl ToolCall.feed {} = ⟨(fragments.foldl ToolCall.feed {}).id,
      (fragments.foldl ToolCall.feed {}).name, (fragments.foldl ToolCall.feed {}).arguments⟩ := rfl
    _ = ⟨call.id, call.name, call.text⟩ := by rw [identified, named, arguments]

/-- A call with an object as its arguments is built. -/
theorem build_streamed {call : StreamedCall} {nesting : Nat}
    (parsed : loadsPlain nesting call.text = .ok (.dict call.arguments)) :
    ToolCall.build nesting ⟨call.id, call.name, call.text⟩ =
      .ok ⟨call.id, call.name, call.arguments⟩ := by
  unfold ToolCall.build
  rw [if_neg fun blank => Json.loads_blank blank _ parsed]
  simp only [parsed]

/-- An event of text reports no calls. -/
theorem toolCalls_textEvent {text : Text} {event : StreamEvent}
    (member : event ∈ if text.isEmpty then [] else [({ text := text } : StreamEvent)]) :
    event.toolCalls = [] := by
  split at member
  · cases member
  · rw [List.mem_singleton.mp member]

/-- The calls of a stream are those of its fragments, and only the last event reports them. -/
theorem GatewayStream.read_calls (table : UnicodeTable) (parts : List Part) (stream : GatewayStream) :
    ∃ events last, stream.read table false parts = events ++ [last] ∧
      (∀ event ∈ events, event.toolCalls = []) ∧
      last.toolCalls = ((parts.flatMap Part.fragments).foldl
        (fun calls fragment => accumulateToolCall fragment calls) stream.toolCalls).map Prod.snd := by
  induction parts generalizing stream with
  | nil =>
      refine ⟨_, _, rfl, ?_, rfl⟩
      intro event member
      exact toolCalls_textEvent member
  | cons part rest ih =>
      obtain ⟨events, last, reads, silent, called⟩ := ih (stream.feed table part).2
      refine ⟨(stream.feed table part).1 ++ events, last, ?_, ?_, ?_⟩
      · rw [List.append_assoc, ← reads]
        rfl
      · intro event member
        rcases List.mem_append.mp member with early | late
        · unfold GatewayStream.feed at early
          dsimp only at early
          rcases List.mem_append.mp early with text | signal
          · exact toolCalls_textEvent text
          · split at signal
            · rw [List.mem_singleton.mp signal]
            · cases signal
        · exact silent event late
      · rw [called, List.flatMap_cons, List.foldl_append]
        rfl

/-- This is the accumulated form of a call. -/
def StreamedCall.raw (call : StreamedCall) : ToolCall := ⟨call.id, call.name, call.text⟩

/-- This is the domain form of a call. -/
def StreamedCall.emitted (map : ToolNameMap) (call : StreamedCall) : BuiltToolCall :=
  ⟨call.id, map.fromWire call.name, call.arguments⟩

/-- The accumulators of interleaved calls are the calls in index order. -/
theorem Interleaves.accumulated {calls : List StreamedCall} {fragments : List Fragment}
    (interleaves : Interleaves calls fragments) (distinct : (calls.map StreamedCall.index).Nodup) :
    Accumulated fragments
      ((sortedBy StreamedCall.index calls).map fun call => (call.index, call.raw)) := by
  constructor
  · apply List.pairwise_map.mpr
    have once : ((sortedBy StreamedCall.index calls).map StreamedCall.index).Nodup :=
      ((sortedBy_perm StreamedCall.index calls).map _).nodup_iff.mpr distinct
    have both := (sortedBy_pairwise StreamedCall.index calls).and (List.pairwise_map.mp once)
    exact both.imp fun ordered => lt_of_le_of_ne ordered.1 ordered.2
  · intro index raw
    rw [List.mem_map]
    constructor
    · rintro ⟨call, member, same⟩
      obtain ⟨rfl, rfl⟩ := Prod.mk.inj same
      have splits := interleaves.split call ((mem_sortedBy _).mp member)
      obtain ⟨fragment, listed, _⟩ := splits.identified
      obtain ⟨known, place⟩ := List.mem_filter.mp listed
      exact ⟨⟨fragment, known, of_decide_eq_true place⟩, splits.fed.symm⟩
    · rintro ⟨⟨fragment, known, place⟩, rfl⟩
      obtain ⟨call, member, same⟩ := interleaves.known fragment known
      have fed := (interleaves.split call member).fed
      rw [← same, place] at fed
      refine ⟨call, (mem_sortedBy _).mpr member, ?_⟩
      rw [fed, ← same, place]
      rfl

/-- Calls with objects as their arguments are emitted under their domain names. -/
theorem domainCalls_raw {map : ToolNameMap} {nesting : Nat} {calls : List StreamedCall}
    (parsed : ∀ call ∈ calls, loadsPlain nesting call.text = .ok (.dict call.arguments)) :
    domainCalls map nesting (calls.map StreamedCall.raw) =
      .ok (calls.map (StreamedCall.emitted map)) := by
  unfold domainCalls
  rw [mapM_eq_ok_iff, List.forall₂_map_left_iff, List.forall₂_map_right_iff, List.forall₂_same]
  intro call member
  unfold StreamedCall.raw
  rw [build_streamed (parsed call member)]
  rfl

/-- The portable names of a map lead back to the domain names. -/
structure ToolNameMap.Lawful (map : ToolNameMap) (names : List Text) : Prop where
  known : ∀ name ∈ names, map.forward.lookup name = some (wireName name)
  back : ∀ name ∈ names, map.reverse.lookup (wireName name) = some name

theorem ToolNameMap.Lawful.add {map next : ToolNameMap} {names : List Text}
    (lawful : map.Lawful names) {name : Text} (added : map.add name = some next) :
    next.Lawful (names ++ [name]) := by
  unfold ToolNameMap.add at added
  split at added
  · cases added
  · next apart =>
      obtain rfl := Option.some.inj added
      constructor
      · intro other member
        rw [Dict.lookup_assigned]
        split
        · next same => rw [same]
        · next different =>
            rcases List.mem_append.mp member with known | last
            · exact lawful.known other known
            · exact absurd (List.mem_singleton.mp last) different
      · intro other member
        rw [Dict.lookup_assigned]
        rcases List.mem_append.mp member with known | last
        · have held := lawful.back other known
          split
          · next same =>
              rw [same] at held
              rw [held, Option.any_some, decide_eq_true_eq, not_not] at apart
              rw [apart]
          · exact held
        · rw [List.mem_singleton.mp last, if_pos rfl]

/-- A domain name survives the way to the provider and back. -/
theorem ToolNameMap.fromWire_toWire {map : ToolNameMap} {names : List Text}
    (built : ToolNameMap.ofNames names = some map) {name : Text} (member : name ∈ names) :
    map.fromWire (map.toWire name) = name := by
  have steps (items done : List Text) (start : ToolNameMap) (lawful : start.Lawful done)
      (runs : items.foldlM ToolNameMap.add start = some map) : map.Lawful (done ++ items) := by
    induction items generalizing done start with
    | nil =>
        rw [List.append_nil, ← Option.some.inj runs]
        exact lawful
    | cons item items ih =>
        rw [List.foldlM_cons, Option.bind_eq_bind, Option.bind_eq_some_iff] at runs
        obtain ⟨next, added, runs⟩ := runs
        rw [List.append_cons]
        exact ih _ next (lawful.add added) runs
  have lawful := steps (sortedSet names) [] ⟨∅, ∅⟩ ⟨nofun, nofun⟩ built
  have listed : name ∈ [] ++ sortedSet names := by
    rw [List.nil_append, mem_sortedSet]
    exact member
  unfold ToolNameMap.fromWire ToolNameMap.toWire
  rw [lawful.known name listed, Option.getD_some, lawful.back name listed, Option.getD_some]

/-- Streamed tool calls are put together exactly, however their fragments are interleaved. -/
theorem streamTools_reassembles (table : UnicodeTable) (nesting : Nat) (names : List Text)
    (map : ToolNameMap) (built : ToolNameMap.ofNames names = some map) (calls : List StreamedCall)
    (parts : List Part) (distinct : (calls.map StreamedCall.index).Nodup)
    (parsed : ∀ call ∈ calls, loadsPlain nesting call.text = .ok (.dict call.arguments))
    (interleaves : Interleaves calls (parts.flatMap Part.fragments)) :
    (∃ events last, streamTools table ⟨parts, none⟩ = events ++ [last] ∧
      (∀ event ∈ events, event.toolCalls = []) ∧
      domainCalls map nesting last.toolCalls =
        .ok ((sortedBy StreamedCall.index calls).map (StreamedCall.emitted map))) ∧
    ∀ name ∈ names, map.fromWire (map.toWire name) = name := by
  constructor
  · obtain ⟨events, last, reads, silent, called⟩ := GatewayStream.read_calls table parts {}
    refine ⟨events, last, reads, silent, ?_⟩
    have accumulated := foldl_accumulateToolCall Accumulated.nil (parts.flatMap Part.fragments)
    rw [List.nil_append] at accumulated
    rw [called, accumulated.unique (interleaves.accumulated distinct), List.map_map]
    apply domainCalls_raw
    intro call member
    exact parsed call ((mem_sortedBy _).mp member)
  · intro name member
    exact ToolNameMap.fromWire_toWire built member

/-- These two calls are streamed with a text between their fragments. -/
def twoCalls : List StreamedCall :=
  [⟨1, "b".toList, "read".toList, "\x7b\"at\": 7\x7d".toList, [("at".toList, .int 7)]⟩,
    ⟨0, "a".toList, "search".toList, "\x7b\x7d".toList, []⟩]

def twoParts : List Part :=
  [{ fragments := [⟨1, "b".toList, "read".toList, "\x7b\"at".toList⟩, ⟨0, [], "search".toList, ['\x7b']⟩] },
    { content := "Reading".toList },
    { fragments := [⟨0, "a".toList, "search".toList, ['\x7d']⟩, ⟨1, "b".toList, [], "\": 7\x7d".toList⟩] },
    { usage := some {} }]

/-- Two interleaved calls are put together. -/
theorem streamTools_reassembles_two :
    ∃ map, ToolNameMap.ofNames ["search".toList, "read".toList] = some map ∧
      (∃ events last, streamTools .symbols ⟨twoParts, none⟩ = events ++ [last] ∧
        (∀ event ∈ events, event.toolCalls = []) ∧
        domainCalls map 10 last.toolCalls =
          .ok ((sortedBy StreamedCall.index twoCalls).map (StreamedCall.emitted map))) ∧
      ∀ name ∈ ["search".toList, "read".toList], map.fromWire (map.toWire name) = name := by
  obtain ⟨map, built⟩ : ∃ map, ToolNameMap.ofNames ["search".toList, "read".toList] = some map :=
    Option.isSome_iff_exists.mp (by decide)
  refine ⟨map, built, streamTools_reassembles .symbols 10 _ map built twoCalls twoParts
    (by decide) ?_ ?_⟩
  · intro call member
    rcases List.mem_cons.mp member with rfl | last
    · rfl
    · rw [List.mem_singleton.mp last]
      rfl
  · constructor
    · decide
    · intro call member
      rcases List.mem_cons.mp member with rfl | last
      · constructor <;> decide
      · rw [List.mem_singleton.mp last]
        constructor <;> decide

end LumenCopilot.Chat

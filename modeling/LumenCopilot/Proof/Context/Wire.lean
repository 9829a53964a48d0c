import LumenCopilot.Construction.Context.Message
import LumenCopilot.Proof.Library.Partial
import LumenCopilot.Proof.Python.Numerals
import Mathlib

namespace LumenCopilot.Context

open Python Library

theorem isNameChar_hexDigit {n : Nat} (digit : n < 16) : isNameChar (hexDigit n) = true := by
  have all : ∀ n < 16, isNameChar (hexDigit n) = true := by decide
  exact all n digit

theorem isNameChar_hexDigits {width n : Nat} {c : Char} (member : c ∈ hexDigits width n) :
    isNameChar c = true := by
  induction width generalizing n with
  | zero => cases member
  | succ width ih =>
      rcases List.mem_append.mp member with high | low
      · exact ih high
      · rw [List.mem_singleton.mp low]
        exact isNameChar_hexDigit (Nat.mod_lt n (by omega))

theorem isNameChar_hexdigest {bytes : List Nat} {c : Char} (member : c ∈ Sha256.hexdigest bytes) :
    isNameChar c = true := by
  obtain ⟨word, -, digit⟩ := List.mem_flatMap.mp member
  exact isNameChar_hexDigits digit

/-- Every projected name is safe. -/
theorem isSafeName_wireName (name : Text) : isSafeName (wireName name) = true := by
  unfold wireName
  split
  · assumption
  · simp only [isSafeName, Bool.and_eq_true, decide_eq_true_eq, List.all_eq_true, List.length_append,
      List.length_cons, List.length_nil, List.length_take]
    refine ⟨⟨by omega, by omega⟩, ?_⟩
    intro c member
    rcases List.mem_append.mp member with front | digit
    · rcases List.mem_append.mp front with readable | separator
      · obtain ⟨original, -, rfl⟩ := List.mem_map.mp (List.mem_of_mem_take readable)
        split
        · assumption
        · decide
      · have underscore : c = '_' := by simpa using separator
        rw [underscore]
        decide
    · exact isNameChar_hexdigest (List.mem_of_mem_take digit)

/-- A projected name is a fixed point of the projection. -/
theorem wireName_wireName (name : Text) : wireName (wireName name) = wireName name := by
  have safe := isSafeName_wireName name
  generalize wireName name = wire at safe ⊢
  simp [wireName, safe]

/-- This is the map of distinctly projected names, the latest name first. -/
def ToolNameMap.of (names : List Text) : ToolNameMap :=
  ⟨names.map fun name => (name, wireName name), names.map fun name => (wireName name, name)⟩

/-- The lookup of a list of pairs finds the first item with the key. -/
theorem lookup_map {α β γ : Type} [BEq α] (key : γ → α) (value : γ → β) (items : List γ) (k : α) :
    (items.map fun item => (key item, value item)).lookup k =
      (items.find? fun item => k == key item).map value := by
  induction items with
  | nil => rfl
  | cons item rest ih =>
      rw [List.map_cons, List.lookup_cons, List.find?_cons, ih]
      cases k == key item <;> rfl

theorem ToolNameMap.of_toWire {names : List Text} {name : Text} (member : name ∈ names) :
    (ToolNameMap.of names).toWire name = wireName name := by
  unfold toWire ToolNameMap.of
  rw [lookup_map]
  cases found : names.find? fun item => name == item with
  | none => exact absurd (List.find?_eq_none.mp found name member) (by simp)
  | some item =>
      have same : name = item := by simpa using List.find?_some found
      rw [same]
      rfl

/-- The projection separates the names. -/
def Separates (names : List Text) : Prop := Set.InjOn wireName {name | name ∈ names}

theorem ToolNameMap.of_fromWire {names : List Text} {name : Text} (separates : Separates names)
    (member : name ∈ names) : (ToolNameMap.of names).fromWire (wireName name) = name := by
  unfold fromWire ToolNameMap.of
  rw [lookup_map]
  cases found : names.find? fun item => wireName name == wireName item with
  | none => exact absurd (List.find?_eq_none.mp found name member) (by simp)
  | some item =>
      have same : wireName name = wireName item := by simpa using List.find?_some found
      exact (separates member (List.mem_of_find?_eq_some found) same).symm

/-- A further separated name is added. -/
theorem ToolNameMap.add_of {names : List Text} {name : Text} (separates : Separates (name :: names)) :
    (ToolNameMap.of names).add name = .ok (ToolNameMap.of (name :: names)) := by
  unfold add ToolNameMap.of
  dsimp only
  rw [lookup_map]
  cases found : names.find? fun item => wireName name == wireName item with
  | none => rfl
  | some item =>
      have same : wireName name = wireName item := by simpa using List.find?_some found
      have known := List.mem_cons_of_mem name (List.mem_of_find?_eq_some found)
      have equal : item = name := (separates List.mem_cons_self known same).symm
      simp [equal]

/-- An added name is separated from the earlier ones. -/
theorem ToolNameMap.add_of_ok {names : List Text} {name : Text} {map : ToolNameMap}
    (separates : Separates names) (added : (ToolNameMap.of names).add name = .ok map) :
    map = ToolNameMap.of (name :: names) ∧ Separates (name :: names) := by
  unfold add ToolNameMap.of at added
  dsimp only at added
  rw [lookup_map] at added
  cases found : names.find? fun item => wireName name == wireName item with
  | none =>
      simp only [found, Option.map_none, Except.ok.injEq] at added
      have other (item : Text) (member : item ∈ names) : wireName name ≠ wireName item := by
        simpa using List.find?_eq_none.mp found item member
      refine ⟨added.symm, ?_⟩
      intro first known second later same
      rcases List.mem_cons.mp known with rfl | earlier
      · rcases List.mem_cons.mp later with rfl | member
        · rfl
        · exact absurd same (other second member)
      · rcases List.mem_cons.mp later with rfl | member
        · exact absurd same.symm (other first earlier)
        · exact separates earlier member same
  | some item =>
      simp only [found, Option.map_some] at added
      split at added
      · cases added
      · next equal =>
          obtain rfl := Decidable.not_not.mp equal
          have member := List.mem_of_find?_eq_some found
          refine ⟨(Except.ok.inj added).symm, ?_⟩
          have same : {other | other ∈ item :: names} = {other | other ∈ names} := by
            ext other
            simp only [Set.mem_ofPred_eq, List.mem_cons, or_iff_right_iff_imp]
            rintro rfl
            exact member
          unfold Separates
          rw [same]
          exact separates

theorem Separates.subset {names fewer : List Text} (separates : Separates names)
    (within : fewer ⊆ names) : Separates fewer :=
  fun _ first _ second same => separates (within first) (within second) same

/-- The names are added one after the other exactly when the projection separates them. -/
theorem ToolNameMap.foldlM_add {items names : List Text} (separates : Separates (items.reverse ++ names)) :
    items.foldlM ToolNameMap.add (ToolNameMap.of names) =
      .ok (ToolNameMap.of (items.reverse ++ names)) := by
  induction items generalizing names with
  | nil => rfl
  | cons name rest ih =>
      simp only [List.reverse_cons, List.append_assoc, List.singleton_append] at separates ⊢
      rw [List.foldlM_cons, add_of (separates.subset (List.subset_append_right _ _)), ok_bind]
      exact ih separates

theorem ToolNameMap.foldlM_add_ok {items names : List Text} {map : ToolNameMap}
    (separates : Separates names)
    (added : items.foldlM ToolNameMap.add (ToolNameMap.of names) = .ok map) :
    map = ToolNameMap.of (items.reverse ++ names) ∧ Separates (items.reverse ++ names) := by
  induction items generalizing names with
  | nil => exact ⟨(Except.ok.inj added).symm, separates⟩
  | cons name rest ih =>
      rw [List.foldlM_cons] at added
      cases first : (ToolNameMap.of names).add name with
      | error raised =>
          rw [first, error_bind] at added
          cases added
      | ok next =>
          obtain ⟨rfl, wider⟩ := add_of_ok separates first
          rw [first, ok_bind] at added
          simpa using ih wider added

/-- These are the names of a map in the order of its entries. -/
def mapped (names : List Text) : List Text := (sortedSet names).reverse

theorem mem_mapped {name : Text} {names : List Text} : name ∈ mapped names ↔ name ∈ names := by
  rw [mapped, List.mem_reverse, mem_sortedSet]

/-- The map of separated names exists. -/
theorem ToolNameMap.ofNames_of {names : List Text} (separates : Separates names) :
    ToolNameMap.ofNames names = .ok (ToolNameMap.of (mapped names)) := by
  have within : Separates ((sortedSet names).reverse ++ []) :=
    separates.subset fun name member => mem_mapped.mp (by simpa [mapped] using member)
  have added := foldlM_add within
  rw [List.append_nil] at added
  exact added

/-- A map that exists separates its names. -/
theorem ToolNameMap.ofNames_ok {names : List Text} {map : ToolNameMap}
    (built : ToolNameMap.ofNames names = .ok map) :
    map = ToolNameMap.of (mapped names) ∧ Separates names := by
  obtain ⟨same, separates⟩ := @foldlM_add_ok _ [] map (by simp [Separates]) built
  rw [List.append_nil] at same separates
  exact ⟨same, separates.subset fun name member => mem_mapped.mpr member⟩

/-- The budgeter and the gateway render one message alike when their maps project its names. -/
theorem toWireMessage_project {first second : ToolNameMap} {message : ChatMessage}
    (counted : ∀ name ∈ message.toolNames, first.toWire name = wireName name)
    (sent : ∀ name ∈ message.toolNames, second.toWire name = wireName name) :
    message.entry first = toWireMessage (message.project second) := by
  have calls : message.toolCalls.map (ToolCall.entry first) =
      message.toolCalls.map fun call => Json.dict [("id".toList, .str call.id),
        ("type".toList, .str "function".toList), ("function".toList, .dict
          [("name".toList, .str (second.toWire call.name)),
            ("arguments".toList, .str (Json.dict call.arguments).dumps)])] := by
    apply List.map_congr_left
    intro call member
    have named : call.name ∈ message.toolNames :=
      List.mem_append_left _ (List.mem_map_of_mem member)
    simp only [ToolCall.entry, counted _ named, sent _ named]
  have result : message.name.map first.toWire = message.name.map second.toWire := by
    cases named : message.name with
    | none => rfl
    | some name =>
        have member : name ∈ message.toolNames := by simp [ChatMessage.toolNames, named]
        simp only [Option.map_some, counted _ member, sent _ member]
  unfold ChatMessage.entry toWireMessage ChatMessage.project
  simp only [calls, List.isEmpty_map, List.map_map, Function.comp_def]
  congr 1
  cases message.toolCalls.isEmpty <;> cases message.toolCallId <;> cases named : message.name <;>
    simp_all

/-- The tools payload is the same for tools that are already projected. -/
theorem wireTools_project {strictSchema : StrictSchema} {map : ToolNameMap} {tools : List ToolSpec}
    (separates : Separates (tools.map ToolSpec.name))
    (sent : ∀ tool ∈ tools, map.toWire tool.name = wireName tool.name) :
    ∃ payload, wireTools strictSchema tools = .ok payload ∧
      toWireTools strictSchema (tools.map (ToolSpec.project map)) = .ok payload := by
  have names : (tools.map (ToolSpec.project map)).map ToolSpec.name =
      (tools.map ToolSpec.name).map wireName := by
    simp only [List.map_map]
    apply List.map_congr_left
    intro tool member
    exact sent tool member
  have again : Separates ((tools.map (ToolSpec.project map)).map ToolSpec.name) := by
    rw [names]
    intro first known second later same
    obtain ⟨one, -, rfl⟩ := List.mem_map.mp known
    obtain ⟨other, -, rfl⟩ := List.mem_map.mp later
    rwa [wireName_wireName, wireName_wireName] at same
  unfold toWireTools wireTools
  rw [ToolNameMap.ofNames_of separates, ToolNameMap.ofNames_of again, ok_bind, ok_bind]
  refine ⟨_, rfl, ?_⟩
  rw [List.filterMap_map]
  simp only [pure_eq_ok, Except.ok.injEq]
  apply List.filterMap_congr
  intro tool member
  have projected : (ToolNameMap.of (mapped ((tools.map (ToolSpec.project map)).map ToolSpec.name))).toWire
      (wireName tool.name) = wireName tool.name := by
    have named : wireName tool.name ∈ (tools.map (ToolSpec.project map)).map ToolSpec.name := by
      rw [names, List.map_map]
      exact List.mem_map_of_mem member
    rw [ToolNameMap.of_toWire (mem_mapped.mpr named), wireName_wireName]
  have counted : (ToolNameMap.of (mapped (tools.map ToolSpec.name))).toWire tool.name =
      wireName tool.name :=
    ToolNameMap.of_toWire (mem_mapped.mpr (List.mem_map_of_mem member))
  simp only [Function.comp_apply, ToolSpec.project, sent tool member, projected, counted]

/-- The budgeter counts what the gateway sends, and the name map of one completion is a safe
bijection on its names. -/
theorem budgeter_counts_the_wire (strictSchema : StrictSchema) (messages : List ChatMessage)
    (tools : List ToolSpec) (map : ToolNameMap)
    (built : ToolNameMap.ofNames (gatewayNames messages tools) = .ok map) :
    messages.mapM messageWireText =
        .ok ((toWireMessages (messages.map (ChatMessage.project map))).map Json.dumpsSorted) ∧
      (∃ payload, toWireTools strictSchema (tools.map (ToolSpec.project map)) = .ok payload ∧
        toolsWireText strictSchema tools = .ok (Json.list payload).dumpsSorted) ∧
      (∀ name ∈ gatewayNames messages tools, map.fromWire (map.toWire name) = name) ∧
      Set.InjOn map.toWire {name | name ∈ gatewayNames messages tools} ∧
      ∀ name ∈ gatewayNames messages tools,
        isSafeName (map.toWire name) ∧ wireName (map.toWire name) = map.toWire name := by
  obtain ⟨rfl, separates⟩ := ToolNameMap.ofNames_ok built
  generalize names : gatewayNames messages tools = offered at separates ⊢
  have sent (name : Text) (member : name ∈ offered) :
      (ToolNameMap.of (mapped offered)).toWire name = wireName name :=
    ToolNameMap.of_toWire (mem_mapped.mpr member)
  refine ⟨?_, ?_, ?_, ?_, ?_⟩
  · rw [mapM_eq_ok_iff, toWireMessages, List.map_map, List.map_map, List.forall₂_map_right_iff,
      List.forall₂_same]
    intro message member
    have within : message.toolNames ⊆ offered := by
      intro name known
      rw [← names]
      simp only [gatewayNames, List.mem_append]
      rcases List.mem_append.mp known with called | result
      · exact Or.inl (Or.inr (List.mem_flatMap.mpr ⟨message, member, called⟩))
      · exact Or.inr (List.mem_filterMap.mpr ⟨message, member, Option.mem_toList.mp result⟩)
    unfold messageWireText
    rw [ToolNameMap.ofNames_of (separates.subset within), ok_bind, pure_eq_ok,
      toWireMessage_project (fun name known => ToolNameMap.of_toWire (mem_mapped.mpr known))
        fun name known => sent name (within known)]
    rfl
  · have offers (tool : ToolSpec) (member : tool ∈ tools) : tool.name ∈ offered := by
      rw [← names]
      simp only [gatewayNames, List.mem_append]
      exact Or.inl (Or.inl (List.mem_map_of_mem member))
    have within : Separates (tools.map ToolSpec.name) := by
      refine separates.subset ?_
      intro name member
      obtain ⟨tool, known, rfl⟩ := List.mem_map.mp member
      exact offers tool known
    obtain ⟨payload, counted, wired⟩ := @wireTools_project strictSchema _ tools within
      fun tool member => sent tool.name (offers tool member)
    exact ⟨payload, wired, by rw [toolsWireText, counted, ok_bind, pure_eq_ok]⟩
  · intro name member
    rw [sent name member]
    exact ToolNameMap.of_fromWire (separates.subset fun _ => mem_mapped.mp) (mem_mapped.mpr member)
  · intro first known second later same
    rw [sent first known, sent second later] at same
    exact separates known later same
  · intro name member
    rw [sent name member]
    exact ⟨isSafeName_wireName name, wireName_wireName name⟩

/-- A conversation calls a tool whose name the provider refuses. -/
def searchConversation : List ChatMessage :=
  [⟨.user, "Find it.".toList, [], none, none, none⟩,
    ⟨.assistant, [], [⟨"c1".toList, "web:search".toList, [("q".toList, .str "it".toList)]⟩], none, none,
      none⟩,
    ⟨.tool, "found".toList, [], some "c1".toList, some "web:search".toList, none⟩]

def searchTools : List ToolSpec :=
  [⟨"web:search".toList, "Search the web.".toList, []⟩, ⟨"open_page".toList, "Open.".toList, []⟩]

theorem budgeter_counts_the_wire_searchConversation :
    ∃ map, ToolNameMap.ofNames (gatewayNames searchConversation searchTools) = .ok map ∧
      searchConversation.mapM messageWireText =
        .ok ((toWireMessages (searchConversation.map (ChatMessage.project map))).map
          Json.dumpsSorted) := by
  have distinct : ∀ first ∈ gatewayNames searchConversation searchTools,
      ∀ second ∈ gatewayNames searchConversation searchTools,
        wireName first = wireName second → first = second := by decide +kernel
  have built := ToolNameMap.ofNames_of
    (show Separates (gatewayNames searchConversation searchTools) from
      fun first known second later => distinct first known second later)
  exact ⟨_, built, (budgeter_counts_the_wire some searchConversation searchTools _ built).1⟩

end LumenCopilot.Context

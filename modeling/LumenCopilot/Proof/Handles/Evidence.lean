import LumenCopilot.Construction.Handles.Evidence
import LumenCopilot.Proof.Handles.Conversation
import LumenCopilot.Proof.Library.Rewriting
import LumenCopilot.Proof.Python.Json
import LumenCopilot.Proof.Python.Methods
import LumenCopilot.Proof.Python.Numerals

namespace LumenCopilot.Handles

open Library Python

variable {registry before after later : EvidenceHandles} {call : Context.ToolCall}
  {passage : ShownPassage} {passages : List ShownPassage} {documentId : Uuid} {text : Text}

namespace EvidenceHandles

/-- A later registry has the handles of an earlier one. -/
def Keeps (before after : EvidenceHandles) : Prop :=
  ∀ entry handle, before.known entry = some handle → after.known entry = some handle

theorem Keeps.rfl : registry.Keeps registry := fun _ _ => id

theorem Keeps.trans (first : before.Keeps registry) (second : registry.Keeps after) :
    before.Keeps after :=
  fun entry handle known => second entry handle (first entry handle known)

/-- An issued handle is known afterwards, beside the ones known before. -/
theorem take_eq_some {source : Source} {handle : Handle}
    (takes : before.take source = some (handle, after)) :
    before.Keeps after ∧ after.known source.evidence = some handle := by
  unfold take issueFor at takes
  rcases issue_cases before source.kind source.evidence with
    ⟨found, known, issues⟩ | ⟨-, issues⟩ | ⟨unknown, -, issues⟩
  · rw [issues] at takes
    obtain ⟨rfl, rfl⟩ := Prod.mk.inj (Option.some.inj takes)
    exact ⟨Keeps.rfl, known⟩
  · rw [issues] at takes
    contradiction
  · rw [issues] at takes
    obtain ⟨rfl, rfl⟩ := Prod.mk.inj (Option.some.inj takes)
    have fresh : (⟨source.kind, freeNumber before.entries before.next⟩ : Handle) ∉ before.entries :=
      not_mem_of_free (freeNumber_free before.entries before.next) source.kind
    exact ⟨fun entry handle known => known_assign fresh source.evidence known,
      known_assign_self fresh unknown⟩

/-- A known source gets its handle again, and nothing changes. -/
theorem take_of_known {source : Source} {handle : Handle}
    (known : registry.known source.evidence = some handle) :
    registry.take source = some (handle, registry) := by
  simp [take, issueFor, issue, known]

end EvidenceHandles

open EvidenceHandles

variable {block : Text}

/-- A rendered passage is rendered the same way ever after. -/
theorem evidence_settles (renders : evidence call before passage = some (block, after)) :
    before.Keeps after ∧
      ∀ later, after.Keeps later → evidence call later passage = some (block, later) := by
  unfold evidence at renders ⊢
  split at renders
  · next named =>
      split at renders
      · contradiction
      · next document middle takes =>
          obtain ⟨⟨handle, last⟩, taken, same⟩ := Option.map_eq_some_iff.mp renders
          obtain ⟨rfl, rfl⟩ := Prod.mk.inj same
          obtain ⟨first, documentKnown⟩ := take_eq_some takes
          obtain ⟨second, passageKnown⟩ := take_eq_some taken
          refine ⟨first.trans second, fun later keeps => ?_⟩
          rw [if_pos named, take_of_known (keeps _ _ (second _ _ documentKnown))]
          simp [take_of_known (keeps _ _ passageKnown)]
  · next other =>
      obtain ⟨⟨handle, last⟩, taken, same⟩ := Option.map_eq_some_iff.mp renders
      obtain ⟨rfl, rfl⟩ := Prod.mk.inj same
      obtain ⟨keeps, known⟩ := take_eq_some taken
      refine ⟨keeps, fun later more => ?_⟩
      rw [if_neg other, take_of_known (more _ _ known)]
      rfl

/-- The snippets that are recorded later are the blocks of the content. -/
theorem recorded_blocks {blocks : List Text}
    (renders : thread (passageBlock call) before passages = some (blocks, after)) :
    before.Keeps after ∧ ∀ later, after.Keeps later → ∃ snippets,
      thread (recordedSnippet call) later passages = some (snippets, later) ∧
        snippets.map Prod.snd = blocks := by
  induction passages generalizing before blocks with
  | nil =>
      obtain ⟨rfl, rfl⟩ := Prod.mk.inj (Option.some.inj renders)
      exact ⟨Keeps.rfl, fun later _ => ⟨[], rfl, rfl⟩⟩
  | cons passage passages ih =>
      rw [thread] at renders
      split at renders
      · contradiction
      · next block middle first =>
          obtain ⟨⟨rest, last⟩, threads, same⟩ := Option.map_eq_some_iff.mp renders
          obtain ⟨rfl, rfl⟩ := Prod.mk.inj same
          unfold passageBlock at first
          split at first
          · contradiction
          · next handle registered takes =>
              obtain ⟨shown, settled⟩ := evidence_settles first
              obtain ⟨kept, recorded⟩ := ih threads
              refine ⟨(take_eq_some takes).1.trans (shown.trans kept), fun later more => ?_⟩
              obtain ⟨snippets, runs, same⟩ := recorded later more
              refine ⟨(passage.chunkId, block) :: snippets, ?_, by rw [List.map_cons, same]⟩
              rw [thread, recordedSnippet, settled later (kept.trans more)]
              simp [runs]

variable {content : Text} {documentIds : List Uuid}

/-- The document ids are rewritten to handles. -/
theorem rewritten {last : Text}
    (rewrites : documentIds.foldlM rewriteId (content, before) = some (last, after)) :
    before.Keeps after ∧ ∃ pairs : List (Text × Text), pairs.map Prod.fst = documentIds.map Uuid.str ∧
      (∀ pair ∈ pairs, ∃ handle : Handle, pair.2 = handle.written) ∧ last = rewrite pairs content := by
  induction documentIds generalizing content before with
  | nil =>
      obtain ⟨rfl, rfl⟩ := Prod.mk.inj (Option.some.inj rewrites)
      exact ⟨Keeps.rfl, [], rfl, nofun, rfl⟩
  | cons documentId documentIds ih =>
      rw [List.foldlM_cons] at rewrites
      obtain ⟨⟨middle, registry⟩, first, rest⟩ := Option.bind_eq_some_iff.mp rewrites
      obtain ⟨⟨handle, taken⟩, takes, same⟩ := Option.map_eq_some_iff.mp first
      obtain ⟨rfl, rfl⟩ := Prod.mk.inj same
      obtain ⟨kept, pairs, ids, handles, same⟩ := ih rest
      refine ⟨(take_eq_some takes).1.trans kept, (documentId.str, handle.written) :: pairs, ?_, ?_, same⟩
      · rw [List.map_cons, List.map_cons, ids]
      · intro pair member
        rcases List.mem_cons.mp member with rfl | later
        · exact ⟨handle, rfl⟩
        · exact handles pair later

variable {c : Char}

theorem Handle.not_mem_written (handle : Handle) (digit : c.isDigit = false)
    (letter : c.isUpper = false) : c ∉ handle.written := by
  intro member
  rcases List.mem_cons.mp member with rfl | number
  · cases kind : handle.kind <;> simp [kind, HandleKind.letter] at letter
  · exact natText_not_mem digit number

theorem Handle.count_written (handle : Handle) : handle.written.count '-' = 0 :=
  List.count_eq_zero_of_not_mem (@handle.not_mem_written '-' (by decide) (by decide))

/-- Document ids have dashes and no line feeds, and handles have neither. -/
theorem weighted_of_handles {pairs : List (Text × Text)}
    (ids : pairs.map Prod.fst = documentIds.map Uuid.str)
    (handles : ∀ pair ∈ pairs, ∃ handle : Handle, pair.2 = handle.written) :
    Weighted '\n' '-' pairs := by
  have written : ∀ pair ∈ pairs, ∃ documentId : Uuid, pair.1 = documentId.str := by
    intro pair member
    have listed : pair.1 ∈ documentIds.map Uuid.str := ids ▸ List.mem_map_of_mem member
    obtain ⟨documentId, -, same⟩ := List.mem_map.mp listed
    exact ⟨documentId, same.symm⟩
  constructor
  · intro pair member
    obtain ⟨documentId, same⟩ := written pair member
    rw [same]
    simp [Uuid.str]
  · intro pair member
    obtain ⟨handle, same⟩ := handles pair member
    rw [same]
    exact handle.not_mem_written (by decide) (by decide)
  · intro pair member inside
    obtain ⟨documentId, same⟩ := written pair member
    rw [same] at inside
    rcases Uuid.mem_str inside with digit | dash
    · exact absurd digit (by decide)
    · exact absurd dash (by decide)
  · intro pair member
    obtain ⟨handle, same⟩ := handles pair member
    rw [same]
    exact handle.not_mem_written (by decide) (by decide)

/-- A letter that is no hexadecimal digit and no dash is not in a document id. -/
theorem not_mem_str (digit : isHexDigit c = false) (other : c ≠ '-') : c ∉ documentId.str := by
  intro member
  rcases Uuid.mem_str member with hex | dash
  · exact Bool.false_ne_true (digit.symm.trans hex)
  · exact other dash

theorem str_filled : documentId.str ≠ [] := by
  intro empty
  have size := Uuid.length_str documentId
  rw [empty] at size
  simp at size

/-- A document id has four dashes. -/
theorem str_absent (few : text.count '-' < 4) : ¬ documentId.str <:+: text := by
  intro found
  have dashes : 4 ≤ documentId.str.count '-' := by
    simp only [Uuid.str, List.count_append, List.count_cons]
    simp
    omega
  have within := found.sublist.count_le '-'
  omega

theorem isSpace_of_isHexDigit (digit : isHexDigit c = true) : isSpace c = false := by
  obtain ⟨n, member, same⟩ := List.any_eq_true.mp digit
  have table : ∀ n ∈ List.range 16, isSpace (hexDigit n) = false := by decide
  rw [beq_iff_eq] at same
  rw [← same]
  exact table n member

theorem str_infix_strip (text : Text) : documentId.str <:+: strip text ↔ documentId.str <:+: text := by
  have printed : ∀ c ∈ documentId.str, isSpace c = false := by
    intro c member
    rcases Uuid.mem_str member with hex | rfl
    · exact isSpace_of_isHexDigit hex
    · decide
  have reversed : documentId.str.reverse ≠ [] := by simpa using @str_filled documentId
  unfold strip lstrip rstrip
  rw [infix_dropWhile_iff str_filled printed, ← List.reverse_infix, List.reverse_reverse,
    infix_dropWhile_iff reversed (by simpa using printed), List.reverse_infix]

theorem count_padded (width : Nat) (value : Int) :
    (padded width value).count '-' = if value < 0 then 1 else 0 := by
  have digits : (natText value.natAbs).count '-' = 0 :=
    List.count_eq_zero_of_not_mem (natText_not_mem (by decide))
  have zeros (count : Nat) : (List.replicate count '0').count '-' = 0 := by
    rw [List.count_replicate]
    rfl
  unfold padded
  rw [List.count_append, List.count_append, digits, zeros]
  split <;> rfl

/-- Only the hours of an offset may have a dash. -/
theorem count_formatPlayerTime (milliseconds : Int) :
    (formatPlayerTime milliseconds).count '-' ≤ 1 := by
  have minutes : ¬ milliseconds % 3600000 / 60000 < 0 := by omega
  have seconds : ¬ milliseconds % 60000 / 1000 < 0 := by omega
  have millis : ¬ milliseconds % 1000 < 0 := by omega
  unfold formatPlayerTime
  dsimp only
  split
  · simp only [List.count_append, List.count_cons, count_padded, minutes, seconds, millis]
    split <;> simp
  · simp [count_padded, minutes, seconds, millis]

/-- These are the texts of the source in the block of a passage. -/
def ShownPassage.shownTexts (passage : ShownPassage) : List Text :=
  passage.documentName :: passage.text ::
    if passage.timeStartMs.isSome ∧ passage.timeEndMs.isSome then [passage.name, passage.speaker]
    else []

theorem ShownPassage.identity_opens (passage : ShownPassage) :
    passage.identity = [] ∨ ∃ rest, passage.identity = ',' :: rest := by
  by_cases unnamed : passage.name = []
  · by_cases silent : passage.speaker = [] <;> simp [identity, unnamed, silent]
  · by_cases silent : passage.speaker = [] <;> simp [identity, unnamed, silent]

theorem str_infix_identity : documentId.str <:+: passage.identity ↔
    documentId.str <:+: passage.name ∨ documentId.str <:+: passage.speaker := by
  have nothing : ¬ documentId.str <:+: [] := str_absent (by decide)
  have comma : ',' ∉ documentId.str := not_mem_str (by decide) (by decide)
  have space : ' ' ∉ documentId.str := not_mem_str (by decide) (by decide)
  have opening : '(' ∉ documentId.str := not_mem_str (by decide) (by decide)
  have closing : ')' ∉ documentId.str := not_mem_str (by decide) (by decide)
  have listed (first : Text) : documentId.str <:+: ',' :: ' ' :: first ↔ documentId.str <:+: first := by
    rw [infix_cons_delimiter_iff comma str_filled, infix_cons_delimiter_iff space str_filled]
  have paired (first second : Text) :
      documentId.str <:+: first ++ ' ' :: '(' :: second ++ [')'] ↔
        documentId.str <:+: first ∨ documentId.str <:+: second := by
    rw [List.append_assoc, List.cons_append, List.cons_append, infix_delimiter_iff space,
      infix_cons_delimiter_iff opening str_filled, infix_delimiter_iff closing, or_iff_left nothing]
  unfold ShownPassage.identity
  dsimp only
  split
  · next both =>
      rw [if_pos both.1]
      show documentId.str <:+: ',' :: ' ' :: (passage.name ++ ' ' :: '(' :: passage.speaker ++ [')']) ↔ _
      rw [listed, paired]
  · next alone =>
      by_cases unnamed : passage.name = []
      · by_cases silent : passage.speaker = []
        · simp [unnamed, silent]
        · simp [unnamed, silent, listed, nothing]
      · have silent : passage.speaker = [] := by
          by_contra spoken
          exact alone ⟨unnamed, spoken⟩
        simp [unnamed, silent, listed, nothing]

/-- The provenance shows the speaker of a passage with a span of time. -/
theorem str_infix_mediaProvenance : documentId.str <:+: passage.mediaProvenance ↔
    (passage.timeStartMs.isSome ∧ passage.timeEndMs.isSome) ∧
      (documentId.str <:+: passage.name ∨ documentId.str <:+: passage.speaker) := by
  have nothing : ¬ documentId.str <:+: [] := str_absent (by decide)
  unfold ShownPassage.mediaProvenance
  split
  · next start finish starts ends =>
      have clock : ¬ documentId.str <:+:
          ", time ".toList ++ formatPlayerTime start ++ '-' :: formatPlayerTime finish := by
        apply str_absent
        have first := count_formatPlayerTime start
        have second := count_formatPlayerTime finish
        have label : (", time ".toList).count '-' = 0 := by simp
        rw [List.count_append, List.count_append, List.count_cons, label]
        simp
        omega
      rw [infix_append_end_iff (not_mem_str (by decide) (by decide)) str_filled
        passage.identity_opens, str_infix_identity, or_iff_right clock]
      simp [starts, ends]
  · next missing =>
      have spanless : ¬ (passage.timeStartMs.isSome ∧ passage.timeEndMs.isSome) := by
        rintro ⟨starts, ends⟩
        obtain ⟨start, started⟩ := Option.isSome_iff_exists.mp starts
        obtain ⟨finish, ended⟩ := Option.isSome_iff_exists.mp ends
        exact missing start finish started ended
      exact iff_of_false nothing fun both => spanless both.1

theorem ShownPassage.mediaProvenance_opens (passage : ShownPassage) :
    passage.mediaProvenance = [] ∨ ∃ rest, passage.mediaProvenance = ',' :: rest := by
  unfold mediaProvenance
  split
  · have label : ", time ".toList = ',' :: " time ".toList := by simp
    rw [label]
    exact Or.inr ⟨_, rfl⟩
  · exact Or.inl rfl

/-- The handle and the range of a document are no part of a document id. -/
theorem str_infix_location (document : Option Handle) :
    documentId.str <:+: passage.location (document.map Handle.written) ↔
      documentId.str <:+: passage.mediaProvenance := by
  cases document with
  | none => rfl
  | some handle =>
      have range : ¬ documentId.str <:+: " (document ".toList ++ handle.written ++ ", chars ".toList ++
          padded 0 passage.charStart ++ '-' :: padded 0 passage.charEnd := by
        apply str_absent
        have label : (" (document ".toList).count '-' = 0 := by simp
        have separator : (", chars ".toList).count '-' = 0 := by simp
        simp only [List.count_append, List.count_cons, count_padded, label, separator,
          handle.count_written]
        split <;> split <;> simp
      have closing : ')' ∉ documentId.str := not_mem_str (by decide) (by decide)
      show documentId.str <:+: (_ ++ passage.mediaProvenance ++ [')']) ↔ _
      rw [infix_delimiter_iff closing, or_iff_left (str_absent (by decide)),
        infix_append_end_iff (not_mem_str (by decide) (by decide)) str_filled
          passage.mediaProvenance_opens]
      exact or_iff_right range

theorem ShownPassage.location_opens (document : Option Text) :
    passage.location document = [] ∨ (∃ rest, passage.location document = ' ' :: rest) ∨
      ∃ rest, passage.location document = ',' :: rest := by
  cases document with
  | none => exact passage.mediaProvenance_opens.imp_right Or.inr
  | some document =>
      have label : " (document ".toList = ' ' :: "(document ".toList := by simp
      unfold location
      rw [label]
      exact Or.inr (Or.inl ⟨_, rfl⟩)

theorem str_absent_label (handle : Handle) : ¬ documentId.str <:+: '[' :: handle.written := by
  apply str_absent
  simp [handle.count_written]

/-- A block shows a document id in the texts of its source alone. -/
theorem str_infix_renderedEvidence (handle : Handle) (document : Option Handle) :
    documentId.str <:+: passage.renderedEvidence handle.written (document.map Handle.written) ↔
      ∃ text ∈ passage.shownTexts, documentId.str <:+: text := by
  have closing : ']' ∉ documentId.str := not_mem_str (by decide) (by decide)
  have space : ' ' ∉ documentId.str := not_mem_str (by decide) (by decide)
  have comma : ',' ∉ documentId.str := not_mem_str (by decide) (by decide)
  have feed : '\n' ∉ documentId.str := not_mem_str (by decide) (by decide)
  have label : ¬ documentId.str <:+: '[' :: handle.written := str_absent_label handle
  have titled : documentId.str <:+: passage.documentName ++
      passage.location (document.map Handle.written) ↔
      documentId.str <:+: passage.documentName ∨
        documentId.str <:+: passage.location (document.map Handle.written) := by
    rcases passage.location_opens (document.map Handle.written) with empty | opens | opens
    · exact infix_append_end_iff comma str_filled (Or.inl empty)
    · exact infix_append_end_iff space str_filled (Or.inr opens)
    · exact infix_append_end_iff comma str_filled (Or.inr opens)
  have shown : passage.renderedEvidence handle.written (document.map Handle.written) =
      '[' :: handle.written ++ ']' :: ' ' ::
        (passage.documentName ++ passage.location (document.map Handle.written) ++
          '\n' :: strip passage.text) := by
    simp [ShownPassage.renderedEvidence]
  rw [shown, infix_delimiter_iff closing, or_iff_right label, infix_cons_delimiter_iff space str_filled,
    infix_delimiter_iff feed, titled, str_infix_strip, str_infix_location,
    str_infix_mediaProvenance]
  unfold ShownPassage.shownTexts
  split
  · next timed => simp [timed, or_comm, or_left_comm]
  · next untimed => simp [untimed, or_comm]

/-- A web block shows a document id in its title, its URL or its visible text alone. -/
theorem str_infix_webBlock (item : WebItem) (handle : Handle) :
    documentId.str <:+: item.block handle.written ↔
      ∃ text ∈ [item.title, item.url, item.visible], documentId.str <:+: text := by
  have closing : ']' ∉ documentId.str := not_mem_str (by decide) (by decide)
  have space : ' ' ∉ documentId.str := not_mem_str (by decide) (by decide)
  have feed : '\n' ∉ documentId.str := not_mem_str (by decide) (by decide)
  have label : ¬ documentId.str <:+: '[' :: handle.written := str_absent_label handle
  have shown (title url visible marker : Text) :
      '[' :: handle.written ++ ']' :: ' ' :: title ++ '\n' :: url ++ '\n' :: visible ++ marker =
        '[' :: handle.written ++ ']' :: ' ' :: (title ++ '\n' :: (url ++ '\n' :: (visible ++ marker))) := by
    simp only [List.append_assoc, List.cons_append]
  have marked : documentId.str <:+: item.visible ++
      (if item.visible.length < item.body.length then "\n[Truncated web excerpt.]".toList else []) ↔
        documentId.str <:+: item.visible := by
    split
    · have marker : "\n[Truncated web excerpt.]".toList = '\n' :: "[Truncated web excerpt.]".toList := by
        simp
      rw [marker, infix_delimiter_iff feed]
      exact or_iff_left (str_absent (by simp))
    · rw [List.append_nil]
  rw [WebItem.block, shown, infix_delimiter_iff closing, or_iff_right label,
    infix_cons_delimiter_iff space str_filled, infix_delimiter_iff feed, infix_delimiter_iff feed,
    marked]
  simp only [List.mem_cons, List.not_mem_nil, or_false, exists_eq_or_imp, exists_eq_left]

variable (reader : WebReader)

/-- These are the texts of the source in the block of a web result. -/
def WebReader.shownTexts (value : Json) : List Text :=
  match reader.item value with
  | none => []
  | some item =>
      if item.visible ≠ [] ∧ reader.citable item.url = true then [item.title, item.url, item.visible]
      else []

/-- These are the texts of the sources in the blocks of a result. -/
def ToolResult.shownTexts (result : ToolResult) : List Text :=
  if result.passages ≠ [] then result.passages.flatMap ShownPassage.shownTexts
  else if result.isWeb then (result.webResults.getD []).flatMap reader.shownTexts
  else []

variable {reader}

variable {α β : Type} {items : List α} {results : List β}

theorem thread_forall₂ {σ : Type} {step : σ → α → Option (β × σ)} {before after : σ}
    (runs : thread step before items = some (results, after)) :
    List.Forall₂ (fun item result => ∃ start finish, step start item = some (result, finish))
      items results := by
  induction items generalizing before results with
  | nil =>
      obtain ⟨rfl, rfl⟩ := Prod.mk.inj (Option.some.inj runs)
      exact List.Forall₂.nil
  | cons item items ih =>
      rw [thread] at runs
      split at runs
      · contradiction
      · next result middle steps =>
          obtain ⟨⟨rest, last⟩, threads, same⟩ := Option.map_eq_some_iff.mp runs
          obtain ⟨rfl, rfl⟩ := Prod.mk.inj same
          exact List.Forall₂.cons ⟨before, middle, steps⟩ (ih threads)

theorem passageBlock_shows (renders : passageBlock call before passage = some (block, after)) :
    documentId.str <:+: block ↔ ∃ text ∈ passage.shownTexts, documentId.str <:+: text := by
  unfold passageBlock at renders
  split at renders
  · contradiction
  · unfold evidence at renders
    split at renders
    · split at renders
      · contradiction
      · next document middle takes =>
          obtain ⟨⟨handle, last⟩, taken, same⟩ := Option.map_eq_some_iff.mp renders
          obtain ⟨rfl, rfl⟩ := Prod.mk.inj same
          exact str_infix_renderedEvidence handle (some document)
    · obtain ⟨⟨handle, last⟩, taken, same⟩ := Option.map_eq_some_iff.mp renders
      obtain ⟨rfl, rfl⟩ := Prod.mk.inj same
      exact str_infix_renderedEvidence handle none

theorem webBlock_shows {value : Json} {found : Option Text}
    (renders : webBlock reader before value = some (found, after)) :
    (∃ block ∈ found, documentId.str <:+: block) ↔
      ∃ text ∈ reader.shownTexts value, documentId.str <:+: text := by
  unfold webBlock at renders
  unfold WebReader.shownTexts
  split at renders
  · next unread =>
      obtain ⟨rfl, rfl⟩ := Prod.mk.inj (Option.some.inj renders)
      simp [unread]
  · next item read =>
      split at renders
      · next empty =>
          obtain ⟨rfl, rfl⟩ := Prod.mk.inj (Option.some.inj renders)
          simp [read, empty]
      · next visible =>
          obtain ⟨⟨handle, last⟩, taken, same⟩ := Option.map_eq_some_iff.mp renders
          obtain ⟨rfl, rfl⟩ := Prod.mk.inj same
          have shows := @str_infix_webBlock documentId item handle
          cases cites : reader.citable item.url with
          | true => simpa [read, visible, cites] using shows
          | false => simp [read, visible, cites]

/-- The recorded snippets and blocks of a call. -/
def Folded.recorded (turn : Folded) : List Text :=
  (turn.snippets.getD []).map Prod.snd ++ turn.webSnippets.getD []

def Folded.Protected (turn : Folded) : Prop :=
  ∀ snippet ∈ turn.recorded, snippet <:+: turn.message.content

theorem thread_shows {step : EvidenceHandles → α → Option (β × EvidenceHandles)} {shown : β → Prop}
    {texts : α → List Text}
    (shows : ∀ {before after item result}, step before item = some (result, after) →
      (shown result ↔ ∃ text ∈ texts item, documentId.str <:+: text))
    (runs : thread step before items = some (results, after)) :
    (∃ result ∈ results, shown result) ↔
      ∃ text ∈ items.flatMap texts, documentId.str <:+: text := by
  have paired := thread_forall₂ runs
  clear runs
  induction paired with
  | nil => simp
  | cons steps _ ih =>
      obtain ⟨start, finish, steps⟩ := steps
      rw [List.flatMap_cons, List.exists_mem_cons_iff, shows steps]
      simp only [List.mem_append, or_and_right, exists_or]
      exact or_congr_right ih

/-- The blocks of a result make its content, unless they are empty, and are what is recorded. -/
theorem renderResult_blocks {result : ToolResult} {web : Option (List Text)}
    (searched : result.passages ≠ [] → call.name = searchText ∨ call.name = searchPassages)
    (renders : renderResult reader call result before = some ((content, web), after)) :
    ∃ blocks, (content = join evidenceSeparator blocks ∨ ∀ block ∈ blocks, block = []) ∧
      (∀ documentId : Uuid, (∃ block ∈ blocks, documentId.str <:+: block) ↔
        ∃ text ∈ result.shownTexts reader, documentId.str <:+: text) ∧
      (result.passages ≠ [] → web = none ∧ ∀ later, after.Keeps later → ∃ snippets,
        thread (recordedSnippet call) later result.passages = some (snippets, later) ∧
          snippets.map Prod.snd = blocks) ∧
      (result.passages = [] → web.getD [] = blocks) := by
  unfold renderResult at renders
  unfold ToolResult.shownTexts
  split at renders
  · next passages =>
      obtain ⟨⟨blocks, last⟩, runs, same⟩ := Option.map_eq_some_iff.mp renders
      obtain ⟨shown, rfl⟩ := Prod.mk.inj same
      obtain ⟨rfl, rfl⟩ := Prod.mk.inj shown
      refine ⟨blocks, Or.inl (if_pos (searched passages)), fun documentId => ?_,
        fun _ => ⟨rfl, (recorded_blocks runs).2⟩, fun none => absurd none passages⟩
      rw [if_pos passages]
      exact thread_shows passageBlock_shows runs
  · next bare =>
      rw [if_neg bare]
      split at renders
      · next found =>
          rw [if_pos found]
          split at renders
          · contradiction
          · next items listed =>
              obtain ⟨⟨found, last⟩, runs, same⟩ := Option.map_eq_some_iff.mp renders
              obtain ⟨shown, rfl⟩ := Prod.mk.inj same
              obtain ⟨rfl, rfl⟩ := Prod.mk.inj shown
              refine ⟨found.reduceOption, ?_, fun documentId => ?_, fun some => absurd some bare,
                fun _ => rfl⟩
              · split
                · exact Or.inl rfl
                · next empty =>
                    refine Or.inr fun block listed => List.infix_nil.mp ?_
                    exact not_not.mp empty ▸ infix_intercalate evidenceSeparator listed
              · have shows : (∃ result ∈ found, ∃ block ∈ result, documentId.str <:+: block) ↔ _ :=
                  thread_shows (fun steps => webBlock_shows steps) runs
                rw [listed, Option.getD_some, ← shows]
                simp only [List.reduceOption_mem_iff]
                constructor
                · rintro ⟨block, member, inside⟩
                  exact ⟨_, member, block, rfl, inside⟩
                · rintro ⟨result, member, block, same, inside⟩
                  obtain rfl : result = block := same
                  exact ⟨block, member, inside⟩
      · next other =>
          obtain ⟨shown, rfl⟩ := Prod.mk.inj (Option.some.inj renders)
          obtain ⟨rfl, rfl⟩ := Prod.mk.inj shown
          rw [if_neg other]
          exact ⟨[], Or.inr nofun, fun _ => by simp, fun some => absurd some bare, fun _ => rfl⟩

/-- What is recorded under a call stays in its message when no source shows a rewritten id. -/
theorem foldResult_protected_iff {entry : Context.ToolCall × ToolResult} {turn : Folded}
    (searched : entry.2.passages ≠ [] → entry.1.name = searchText ∨ entry.1.name = searchPassages)
    (folds : foldResult reader before entry = some (turn, after)) :
    turn.message.toolCallId = entry.1.id ∧
      (turn.Protected ↔ ∀ documentId ∈ entry.2.documentIds, ∀ text ∈ entry.2.shownTexts reader,
        ¬ documentId.str <:+: text) := by
  unfold foldResult at folds
  split at folds
  · contradiction
  · next rendered web shown renders =>
      split at folds
      · contradiction
      · next content registry rewrites =>
          obtain ⟨blocks, joined, shows, recorded, plain⟩ := renderResult_blocks searched renders
          obtain ⟨keeps, pairs, ids, handles, rfl⟩ := rewritten rewrites
          have turned : turn.message.toolCallId = entry.1.id ∧ turn.recorded = blocks ∧
              turn.message.content = rewrite pairs rendered := by
            dsimp only at folds
            split at folds
            · next passages =>
                obtain ⟨rfl, later⟩ := recorded passages
                obtain ⟨snippets, runs, same⟩ := later registry keeps
                rw [runs] at folds
                obtain ⟨rfl, -⟩ := Prod.mk.inj (Option.some.inj folds)
                exact ⟨rfl, by simp [Folded.recorded, same], rfl⟩
            · next bare =>
                obtain ⟨rfl, -⟩ := Prod.mk.inj (Option.some.inj folds)
                exact ⟨rfl, plain (not_not.mp bare), rfl⟩
          obtain ⟨named, records, written⟩ := turned
          refine ⟨named, ?_⟩
          unfold Folded.Protected
          rw [records, written]
          have absent : (∀ documentId ∈ entry.2.documentIds, ∀ text ∈ entry.2.shownTexts reader,
              ¬ documentId.str <:+: text) ↔ ∀ block ∈ blocks, ∀ pair ∈ pairs, ¬ pair.1 <:+: block := by
            constructor
            · intro clear block listed pair member found
              have known : pair.1 ∈ entry.2.documentIds.map Uuid.str := ids ▸ List.mem_map_of_mem member
              obtain ⟨documentId, there, same⟩ := List.mem_map.mp known
              obtain ⟨text, shown, inside⟩ := (shows documentId).mp ⟨block, listed, same ▸ found⟩
              exact clear documentId there text shown inside
            · intro clear documentId there text shown inside
              obtain ⟨block, listed, found⟩ := (shows documentId).mpr ⟨text, shown, inside⟩
              have known : documentId.str ∈ pairs.map Prod.fst := ids ▸ List.mem_map_of_mem there
              obtain ⟨pair, member, same⟩ := List.mem_map.mp known
              exact clear block listed pair member (same ▸ found)
          rw [absent]
          rcases joined with rfl | empty
          · exact (weighted_of_handles ids handles).blocks_infix_iff blocks
          · apply iff_of_true
            · intro block listed
              rw [empty block listed]
              exact List.nil_infix
            · intro block listed pair member found
              rw [empty block listed, List.infix_nil] at found
              exact (weighted_of_handles ids handles).filled member found

variable {turns : List Folded}

theorem lookup_recorded {ν : Type} {field : Folded → Option ν} {id : Text} {value : ν}
    (found : (turns.foldl (fun (recorded : Dict Text ν) turn =>
      (field turn).elim recorded (recorded.assign turn.message.toolCallId)) ∅).lookup id = some value) :
    ∃ turn ∈ turns, turn.message.toolCallId = id ∧ field turn = some value := by
  refine List.foldlRecOn (motive := fun recorded : Dict Text ν => recorded.lookup id = some value →
    ∃ turn ∈ turns, turn.message.toolCallId = id ∧ field turn = some value) turns _ ?_ ?_ found
  · intro found
    simp at found
  · intro recorded earlier turn member found
    cases records : field turn with
    | none =>
        rw [records] at found
        exact earlier found
    | some last =>
        rw [records, Option.elim_some, Dict.lookup_assigned] at found
        split at found
        · next same =>
            obtain rfl := Option.some.inj found
            exact ⟨turn, member, same.symm, records⟩
        · exact earlier found

theorem citedSnippets_subset (cited : Text → Bool) (seen : List Text)
    (entries : List (Text × Text)) : citedSnippets cited seen entries ⊆ entries.map Prod.snd := by
  induction entries generalizing seen with
  | nil => exact List.Subset.refl _
  | cons entry entries ih =>
      rw [citedSnippets]
      split
      · exact List.cons_subset_cons _ (ih _)
      · exact List.subset_cons_of_subset _ (ih _)

/-- The compactor protects and embeds what was recorded under the id of a call. -/
theorem citedSnippetsByCall_recorded {cited : Text → Bool} {id : Text} {snippets : List Text}
    (found : (citedSnippetsByCall (passageSnippets turns) cited (webSnippets turns)).lookup id =
      some snippets) :
    ∃ turn ∈ turns, turn.message.toolCallId = id ∧ snippets ⊆ turn.recorded := by
  refine List.foldlRecOn (motive := fun out : Dict Text (List Text) => out.lookup id = some snippets →
    ∃ turn ∈ turns, turn.message.toolCallId = id ∧ snippets ⊆ turn.recorded)
    (passageSnippets turns).entries _ ?_ ?_ found
  · intro found
    obtain ⟨turn, member, named, records⟩ := lookup_recorded found
    refine ⟨turn, member, named, ?_⟩
    rw [Folded.recorded, records]
    exact List.subset_append_right _ _
  · intro out earlier entry listed found
    dsimp only at found
    split at found
    · exact earlier found
    · rw [Dict.lookup_assigned] at found
      split at found
      · next same =>
          obtain rfl := Option.some.inj found
          obtain ⟨turn, member, named, records⟩ :=
            lookup_recorded (Dict.lookup_eq_some_iff.mpr listed)
          refine ⟨turn, member, named.trans same.symm, ?_⟩
          rw [Folded.recorded, records]
          exact List.Subset.trans (citedSnippets_subset cited [] entry.2) (List.subset_append_left _ _)
      · exact earlier found

/-- What is recorded under the calls of a batch stays in their messages exactly when no source
shows a document id that is rewritten to a handle. -/
theorem foldResults_protected_iff {batch : List (Context.ToolCall × ToolResult)}
    (searched : ∀ entry ∈ batch, entry.2.passages ≠ [] →
      entry.1.name = searchText ∨ entry.1.name = searchPassages)
    (folds : foldResults reader before batch = some (turns, after)) :
    turns.map (fun turn => turn.message.toolCallId) = batch.map (fun entry => entry.1.id) ∧
      ((∀ turn ∈ turns, turn.Protected) ↔ ∀ entry ∈ batch, ∀ documentId ∈ entry.2.documentIds,
        ∀ text ∈ entry.2.shownTexts reader, ¬ documentId.str <:+: text) ∧
      ∀ cited id snippets,
        (citedSnippetsByCall (passageSnippets turns) cited (webSnippets turns)).lookup id =
          some snippets → ∃ turn ∈ turns, turn.message.toolCallId = id ∧ snippets ⊆ turn.recorded := by
  have paired := thread_forall₂ folds
  rw [← and_assoc]
  refine ⟨?_, fun cited id snippets => citedSnippetsByCall_recorded⟩
  clear folds
  induction paired with
  | nil => simp
  | cons step _ ih =>
      obtain ⟨start, finish, step⟩ := step
      obtain ⟨named, kept⟩ := foldResult_protected_iff (searched _ List.mem_cons_self) step
      obtain ⟨names, rest⟩ := ih fun entry member => searched entry (.tail _ member)
      rw [List.map_cons, List.map_cons, named, names, List.forall_mem_cons, List.forall_mem_cons, kept,
        rest]
      exact ⟨rfl, Iff.rfl⟩

/-- A search finds one passage of a document. -/
def foundPassage (documentId : Uuid) (text : Text) : Context.ToolCall × ToolResult :=
  (⟨"c1".toList, searchText, []⟩,
    { ok := true
      content := []
      passages := [{
        chunkId := "k1".toList
        documentId := documentId.str
        text
        charStart := 0
        charEnd := 40
        documentName := "plan".toList }]
      documentIds := [documentId] })

theorem foldResults_protected_iff_plain :
    ∃ folded, foldResults ⟨fun _ => [], fun _ => none⟩ (.start 1 ∅ 8)
        [foundPassage ⟨7, by decide⟩ "goals".toList] = some folded ∧
      ∀ turn ∈ folded.1, turn.Protected := by
  have present : (foldResults ⟨fun _ => [], fun _ => none⟩ (.start 1 ∅ 8)
      [foundPassage ⟨7, by decide⟩ "goals".toList]).isSome = true := by decide +kernel
  obtain ⟨folded, folds⟩ := Option.isSome_iff_exists.mp present
  have searched : ∀ entry ∈ [foundPassage ⟨7, by decide⟩ "goals".toList], entry.2.passages ≠ [] →
      entry.1.name = searchText ∨ entry.1.name = searchPassages := by
    intro entry member _
    exact Or.inl (congrArg (fun entry => entry.1.name) (List.mem_singleton.mp member))
  exact ⟨folded, folds, (foldResults_protected_iff searched folds).2.1.mpr (by decide)⟩

/-- The id of a document in its own text is rewritten in the message alone. -/
theorem foldResults_unprotected :
    ¬∀ (reader : WebReader) (before after : EvidenceHandles)
      (batch : List (Context.ToolCall × ToolResult)) (turns : List Folded),
      (∀ entry ∈ batch, entry.2.passages ≠ [] →
        entry.1.name = searchText ∨ entry.1.name = searchPassages) →
      foldResults reader before batch = some (turns, after) → ∀ turn ∈ turns, turn.Protected := by
  intro claimed
  have broken : ∃ folded ∈ foldResults ⟨fun _ => [], fun _ => none⟩ (.start 1 ∅ 8)
      [foundPassage ⟨7, by decide⟩ (Uuid.str ⟨7, by decide⟩)], ∃ turn ∈ folded.1,
        ∃ snippet ∈ turn.recorded, ¬ snippet <:+: turn.message.content := by
    decide +kernel
  obtain ⟨⟨turns, after⟩, folds, turn, member, snippet, recorded, lost⟩ := broken
  refine lost (claimed _ _ after _ turns ?_ folds turn member snippet recorded)
  intro entry listed _
  exact Or.inl (congrArg (fun entry => entry.1.name) (List.mem_singleton.mp listed))

end LumenCopilot.Handles

import LumenCopilot.Construction.Web.Connector
import LumenCopilot.Proof.Web.Fetch
import Mathlib

namespace LumenCopilot.Web

open Python Library

section Fetch

variable (lib : UrlLibrary) (options : FetchOptions) (worlds : Nat → HopWorld)

/-- The redirects of the hops lead from one URL to the last one. -/
def Reaches : Nat → Nat → Text → Text → Prop
  | _, 0, current, last => current = last
  | hop, steps + 1, current, last =>
      ∃ next, Follows lib options (worlds hop) current next ∧ Reaches (hop + 1) steps next last

/-- No library function raises at a URL that the fetch reaches. -/
def NoHopRaises (url : Text) : Prop :=
  ∀ hop ≤ options.maxRedirects, ∀ last, Reaches lib options worlds 0 hop url last →
    ¬HopRaises lib options (worlds hop) last

/-- The loop ends in an exception exactly when a library function raises at a URL it reaches. -/
theorem fetchLoop_raised (start : Text) (passes hop : Nat) (current : Text) :
    (fetchLoop lib options worlds start passes hop current).2 = .error .raised ↔
      ∃ steps < passes, ∃ last, Reaches lib options worlds hop steps current last ∧
        HopRaises lib options (worlds (hop + steps)) last := by
  induction passes generalizing hop current with
  | zero => simp [fetchLoop]
  | succ passes ih =>
      rw [fetchLoop]
      have raised := fetchHop_raised lib options (worlds hop) start current
      have follows (next : Text) := fetchHop_follow lib options (worlds hop) start current next
      generalize fetchHop lib options (worlds hop) start current = asked at raised follows
      obtain ⟨sent, outcome⟩ := asked
      cases outcome with
      | done result =>
          rw [HopOutcome.done.injEq] at raised
          rw [raised]
          constructor
          · intro raises
            exact ⟨0, Nat.zero_lt_succ passes, current, rfl, raises⟩
          · rintro ⟨steps, _, last, reaches, raises⟩
            cases steps with
            | zero =>
                obtain rfl : current = last := reaches
                exact raises
            | succ steps =>
                obtain ⟨next, leads, -⟩ := reaches
                exact absurd ((follows next).mpr leads) (by simp)
      | follow next =>
          have only (other : Text) (leads : Follows lib options (worlds hop) current other) :
              other = next := (HopOutcome.follow.inj ((follows other).mpr leads)).symm
          have quiet : ¬HopRaises lib options (worlds hop) current := by
            rw [← raised]
            simp
          show (fetchLoop lib options worlds start passes (hop + 1) next).2 = _ ↔ _
          rw [ih (hop + 1) next]
          constructor
          · rintro ⟨steps, short, last, reaches, raises⟩
            refine ⟨steps + 1, Nat.succ_lt_succ short, last, ⟨next, (follows next).mp rfl, reaches⟩, ?_⟩
            rw [show hop + (steps + 1) = hop + 1 + steps by omega]
            exact raises
          · rintro ⟨steps, short, last, reaches, raises⟩
            cases steps with
            | zero =>
                obtain rfl : current = last := reaches
                exact absurd raises quiet
            | succ steps =>
                obtain ⟨other, leads, rest⟩ := reaches
                obtain rfl := only other leads
                refine ⟨steps, Nat.lt_of_succ_lt_succ short, last, rest, ?_⟩
                rw [show hop + 1 + steps = hop + (steps + 1) by omega]
                exact raises

/-- A fetch succeeds or raises a connector error exactly when no library function raises. -/
theorem fetchUrl_typed (url : Text) :
    (∀ error, (fetchUrl lib options worlds url).2 = .error error → error.isConnectorError = true) ↔
      NoHopRaises lib options worlds url := by
  have raised := fetchLoop_raised lib options worlds url (options.maxRedirects + 1) 0 url
  have kinds : (∀ error, (fetchUrl lib options worlds url).2 = .error error →
      error.isConnectorError = true) ↔ (fetchUrl lib options worlds url).2 ≠ .error .raised := by
    constructor
    · intro typed same
      exact absurd (typed .raised same) (by simp [FetchError.isConnectorError])
    · intro quiet error same
      cases error with
      | raised => exact absurd same quiet
      | _ => rfl
  rw [kinds, NoHopRaises, Ne, fetchUrl, raised]
  constructor
  · intro quiet hop within last reaches raises
    refine quiet ⟨hop, Nat.lt_succ_of_le within, last, reaches, ?_⟩
    rw [Nat.zero_add]
    exact raises
  · intro clean ⟨hop, within, last, reaches, raises⟩
    rw [Nat.zero_add] at raises
    exact clean hop (Nat.le_of_lt_succ within) last reaches raises

theorem validateUrlSyntactic_typed (url : Text) :
    (∀ error, validateUrlSyntactic lib url = .error error → error.isConnectorError = true) ↔
      lib.urlsplit url ≠ none := by
  rw [Ne, ← validateUrlSyntactic_raised]
  constructor
  · intro typed same
    exact absurd (typed .raised same) (by simp [FetchError.isConnectorError])
  · intro quiet error same
    cases error with
    | raised => exact absurd same quiet
    | _ => rfl

end Fetch

section Sync

variable (urls : UrlLibrary) (parsers : ParserLibrary) (options : FetchOptions)
  (worlds : Nat → Nat → HopWorld)

/-- These are the documents of the children whose fetch succeeds, in order. -/
def fetchedDocs (first : Nat) (children : List Child) : List FetchedDoc :=
  (children.zipIdx first).filterMap fun entry =>
    (fetchUrl urls options (worlds entry.2) entry.1.url).2.toOption.map (entry.1.doc parsers)

/-- The children bring their documents exactly when no fetch of a child raises. -/
theorem docsFrom_ok (first : Nat) (children : List Child) :
    docsFrom urls parsers options worlds first children =
        .ok (fetchedDocs urls parsers options worlds first children) ↔
      ∀ entry ∈ children.zipIdx first, NoHopRaises urls options (worlds entry.2) entry.1.url := by
  induction children generalizing first with
  | nil => simp [docsFrom, fetchedDocs]
  | cons child children ih =>
      have typed := fetchUrl_typed urls options (worlds first) child.url
      have rest := ih (first + 1)
      rw [List.zipIdx_cons, List.forall_mem_cons, ← rest, ← typed, docsFrom, fetchedDocs,
        List.zipIdx_cons, List.filterMap_cons, ← fetchedDocs]
      cases fetched : (fetchUrl urls options (worlds first) child.url).2 with
      | ok result =>
          cases docsFrom urls parsers options worlds (first + 1) children with
          | error error => simp [Except.map]
          | ok docs => simp [Except.map, Except.toOption]
      | error error =>
          by_cases connector : error.isConnectorError = true
          · simp [connector, Except.toOption]
          · simp [connector]

theorem childrenOf_length (root : FetchResult) (children : List Child)
    (found : childrenOf parsers root = some children) : children.length ≤ maxChildUrls := by
  have feed (items : List FeedItem) (read : parseFeed parsers root.text = some items) :
      items.length ≤ maxChildUrls := by
    unfold parseFeed at read
    split at read
    · contradiction
    · dsimp only at read
      split at read
      · rw [← Option.some.inj read]
        exact List.length_take_le _ _
      · split at read
        · rw [← Option.some.inj read]
          exact List.length_take_le _ _
        · contradiction
  have sitemap (locs : List Text) (read : parseSitemap parsers root.text = some locs) :
      locs.length ≤ maxChildUrls := by
    unfold parseSitemap at read
    split at read
    · contradiction
    · dsimp only at read
      split at read
      · rw [← Option.some.inj read]
        exact List.length_take_le _ _
      · contradiction
  unfold childrenOf at found
  split at found
  · next first rest read =>
      rw [← Option.some.inj found, List.length_map]
      exact feed _ read
  · split at found
    · next first rest read =>
        rw [← Option.some.inj found, List.length_map]
        exact sitemap _ read
    · contradiction

end Sync

section Sample

/-- The page of the sample host is a feed with one item of that link. -/
def sampleFeed (link : Text) : ParserLibrary where
  table := .symbols
  fromstring _ :=
    some (.node "rss".toList [] none
      [.node "item".toList [] none [.node "link".toList [] (some link) []]])
  htmlEvents _ := []

end Sample

end LumenCopilot.Web

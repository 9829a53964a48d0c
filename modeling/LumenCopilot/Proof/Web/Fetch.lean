import LumenCopilot.Construction.Web.Fetch
import LumenCopilot.Proof.Library.Partial
import LumenCopilot.Proof.Python.Numerals
import Mathlib

namespace LumenCopilot.Web

open Python Library

section Hops

variable (lib : UrlLibrary)

/-- The text is the literal of an address that is not blocked. -/
def SafeLiteral (text : Text) : Prop :=
  ∃ address, lib.ipAddress text = some address ∧ isBlockedIp lib address = false

/-- The URL names a host under an allowed scheme. -/
structure Names (url : Text) (parts : SplitUrl) (host : Text) : Prop where
  split : lib.urlsplit url = some parts
  scheme : strLower lib.table parts.scheme ∈ allowedSchemes
  hostname : parts.hostname = some host
  filled : host ≠ []

/-- The fetcher may dial the address for the host: the host is that literal, or the address is the
first of those that the host has, none of which is blocked. -/
def Resolves (resolve : Text → Resolution) (host ip : Text) : Prop :=
  (ip = host ∧ SafeLiteral lib host) ∨
    lib.ipAddress host = none ∧ ∃ found, resolve host = .addresses found ∧
      found.head? = some ip ∧ ∀ address ∈ found, SafeLiteral lib address

theorem Resolves.safe {resolve : Text → Resolution} {host ip : Text}
    (resolves : Resolves lib resolve host ip) : SafeLiteral lib ip := by
  rcases resolves with ⟨rfl, safe⟩ | ⟨-, found, -, first, safe⟩
  · exact safe
  · exact safe ip (List.mem_of_head? first)

/-- The address check passes exactly the lists without a blocked address. -/
theorem checkAddresses_ok (host : Text) (infos found : List Text) :
    checkAddresses lib host infos = .ok found ↔
      found = infos ∧ ∀ address ∈ infos, SafeLiteral lib address := by
  induction infos generalizing found with
  | nil =>
      rw [checkAddresses, Except.ok.injEq]
      exact ⟨fun same => ⟨same.symm, by simp⟩, fun both => both.1.symm⟩
  | cons first rest ih =>
      rw [checkAddresses, List.forall_mem_cons]
      cases parsed : lib.ipAddress first with
      | none => simp [SafeLiteral, parsed]
      | some address =>
          dsimp only
          by_cases blocked : isBlockedIp lib address = true
          · simp [SafeLiteral, parsed, blocked]
          · have safe : SafeLiteral lib first := ⟨address, parsed, by simpa using blocked⟩
            rw [if_neg blocked, map_eq_ok_iff]
            constructor
            · intro ⟨later, checked, same⟩
              obtain ⟨rfl, clean⟩ := (ih later).mp checked
              exact ⟨same.symm, safe, clean⟩
            · intro ⟨same, _, clean⟩
              exact ⟨rest, (ih rest).mpr ⟨rfl, clean⟩, same.symm⟩

theorem resolveSafeIp_ok (resolve : Text → Resolution) (host ip : Text)
    (name : lib.ipAddress host = none) :
    resolveSafeIp lib resolve host = .ok ip ↔ Resolves lib resolve host ip := by
  rw [resolveSafeIp, name, Resolves]
  have noLiteral : ¬SafeLiteral lib host := by simp [SafeLiteral, name]
  cases answer : resolve host with
  | malformed => simp [noLiteral]
  | gaierror => simp [noLiteral]
  | addresses infos =>
      simp only [noLiteral, and_false, name, true_and, false_or, Resolution.addresses.injEq,
        exists_eq_left']
      cases checked : checkAddresses lib host infos with
      | error refusal =>
          have refused : ¬∀ address ∈ infos, SafeLiteral lib address := by
            intro clean
            have passed := (checkAddresses_ok lib host infos infos).mpr ⟨rfl, clean⟩
            rw [checked] at passed
            contradiction
          simp [refused]
      | ok found =>
          obtain ⟨rfl, clean⟩ := (checkAddresses_ok lib host infos found).mp checked
          cases found with
          | nil => simp
          | cons first rest =>
              simp only [Except.ok.injEq, List.head?_cons, Option.some.injEq]
              exact ⟨fun same => ⟨same, clean⟩, fun both => both.1⟩

theorem resolveSafeIp_raised (resolve : Text → Resolution) (host : Text)
    (name : lib.ipAddress host = none) :
    resolveSafeIp lib resolve host = .error .raised ↔ resolve host = .malformed := by
  rw [resolveSafeIp, name]
  cases answer : resolve host with
  | malformed => simp
  | gaierror => simp
  | addresses infos =>
      dsimp only
      split <;> simp

/-- The syntactic check passes exactly the URLs that name a host which is not a blocked literal. -/
theorem validateUrlSyntactic_ok (url host : Text) :
    validateUrlSyntactic lib url = .ok host ↔
      ∃ parts, Names lib url parts host ∧ (lib.ipAddress host = none ∨ SafeLiteral lib host) := by
  rw [validateUrlSyntactic]
  cases cut : lib.urlsplit url with
  | none =>
      refine iff_of_false (by simp) ?_
      rintro ⟨parts, names, -⟩
      rw [names.split] at cut
      contradiction
  | some parts =>
      have only (other : SplitUrl) (found : Text) : Names lib url other found →
          other = parts := fun names => Option.some.inj (names.split.symm.trans cut)
      dsimp only
      by_cases scheme : strLower lib.table parts.scheme ∈ allowedSchemes
      · rw [if_neg (not_not.mpr scheme)]
        cases named : parts.hostname with
        | none =>
            refine iff_of_false (by simp) ?_
            rintro ⟨other, names, -⟩
            obtain rfl := only other host names
            simp [names.hostname] at named
        | some found =>
            cases found with
            | nil =>
                refine iff_of_false (by simp) ?_
                rintro ⟨other, names, -⟩
                obtain rfl := only other host names
                rw [names.hostname] at named
                exact names.filled (Option.some.inj named)
            | cons c rest =>
                have names : Names lib url parts (c :: rest) :=
                  ⟨cut, scheme, named, List.cons_ne_nil c rest⟩
                have same (other : SplitUrl) (called : Names lib url other host) : host = c :: rest := by
                  obtain rfl := only other host called
                  exact Option.some.inj (called.hostname.symm.trans named)
                dsimp only
                cases parsed : lib.ipAddress (c :: rest) with
                | none =>
                    rw [Except.ok.injEq]
                    constructor
                    · rintro rfl
                      exact ⟨parts, names, Or.inl parsed⟩
                    · rintro ⟨other, found, -⟩
                      exact (same other found).symm
                | some address =>
                    dsimp only
                    by_cases blocked : isBlockedIp lib address = true
                    · rw [if_pos blocked]
                      refine iff_of_false (by simp) ?_
                      rintro ⟨other, found, safe⟩
                      rw [same other found] at safe
                      rcases safe with name | ⟨literal, read, safe⟩
                      · rw [parsed] at name
                        contradiction
                      · obtain rfl := Option.some.inj (parsed.symm.trans read)
                        simp [blocked] at safe
                    · rw [if_neg blocked, Except.ok.injEq]
                      constructor
                      · rintro rfl
                        exact ⟨parts, names, Or.inr ⟨address, parsed, by simpa using blocked⟩⟩
                      · rintro ⟨other, found, -⟩
                        exact (same other found).symm
      · rw [if_pos scheme]
        refine iff_of_false (by simp) ?_
        rintro ⟨other, names, -⟩
        obtain rfl := only other host names
        exact scheme names.scheme

theorem validateUrlSyntactic_raised (url : Text) :
    validateUrlSyntactic lib url = .error .raised ↔ lib.urlsplit url = none := by
  rw [validateUrlSyntactic]
  cases cut : lib.urlsplit url with
  | none => simp
  | some parts =>
      refine iff_of_false ?_ (by simp)
      dsimp only
      split
      · simp
      · split
        · simp
        · simp
        · split
          · simp
          · split <;> simp

theorem chooseIp_ok (resolve : Text → Resolution) (host ip : Text)
    (passed : lib.ipAddress host = none ∨ SafeLiteral lib host) :
    chooseIp lib resolve host = .ok ip ↔ Resolves lib resolve host ip := by
  unfold chooseIp
  cases parsed : lib.ipAddress host with
  | none => exact resolveSafeIp_ok lib resolve host ip parsed
  | some address =>
      have safe : SafeLiteral lib host := passed.resolve_left (by simp [parsed])
      simp [Resolves, parsed, safe, eq_comm]

theorem chooseIp_raised (resolve : Text → Resolution) (host : Text) :
    chooseIp lib resolve host = .error .raised ↔
      lib.ipAddress host = none ∧ resolve host = .malformed := by
  unfold chooseIp
  cases parsed : lib.ipAddress host with
  | none => simp [resolveSafeIp_raised lib resolve host parsed]
  | some address => simp

/-- The guard accepts exactly a named host with an address and a readable port. -/
theorem validateUrl_ok (resolve : Text → Resolution) (url ip host : Text) :
    validateUrl lib resolve url = .ok (ip, host) ↔
      ∃ parts, Names lib url parts host ∧ Resolves lib resolve host ip ∧ parts.port ≠ none := by
  constructor
  · intro accepted
    obtain ⟨name, checked, rest⟩ := bind_eq_ok accepted
    obtain ⟨safeIp, picked, port⟩ := bind_eq_ok rest
    obtain ⟨parts, names, passed⟩ := (validateUrlSyntactic_ok lib url name).mp checked
    rw [names.split, Option.bind_some] at port
    cases read : parts.port with
    | none => simp [read] at port
    | some value =>
        rw [read] at port
        obtain ⟨rfl, rfl⟩ := Prod.mk.inj (Except.ok.inj port)
        exact ⟨parts, names, (chooseIp_ok lib resolve name safeIp passed).mp picked, by simp [read]⟩
  · intro ⟨parts, names, resolves, port⟩
    have passed : lib.ipAddress host = none ∨ SafeLiteral lib host := by
      rcases resolves with ⟨-, safe⟩ | ⟨name, -⟩
      · exact Or.inr safe
      · exact Or.inl name
    have checked := (validateUrlSyntactic_ok lib url host).mpr ⟨parts, names, passed⟩
    have picked := (chooseIp_ok lib resolve host ip passed).mpr resolves
    obtain ⟨value, read⟩ := Option.ne_none_iff_exists'.mp port
    simp [validateUrl, checked, picked, names.split, read, bind, Except.bind]

/-- The guard lets an exception through exactly when a library function raises it. -/
theorem validateUrl_raised (resolve : Text → Resolution) (url : Text) :
    validateUrl lib resolve url = .error .raised ↔
      lib.urlsplit url = none ∨ ∃ parts host, Names lib url parts host ∧
        (lib.ipAddress host = none ∧ resolve host = .malformed ∨
          (∃ ip, Resolves lib resolve host ip) ∧ parts.port = none) := by
  unfold validateUrl
  cases checked : validateUrlSyntactic lib url with
  | error error =>
      have only := validateUrlSyntactic_raised lib url
      rw [checked, Except.error.injEq] at only
      show Except.error error = _ ↔ _
      rw [Except.error.injEq, only]
      constructor
      · exact Or.inl
      · rintro (split | ⟨parts, host, names, cause⟩)
        · exact split
        · have passed : lib.ipAddress host = none ∨ SafeLiteral lib host := by
            rcases cause with ⟨name, -⟩ | ⟨⟨ip, ⟨-, safe⟩ | ⟨name, -⟩⟩, -⟩
            · exact Or.inl name
            · exact Or.inr safe
            · exact Or.inl name
          have accepted := (validateUrlSyntactic_ok lib url host).mpr ⟨parts, names, passed⟩
          rw [checked] at accepted
          contradiction
  | ok host =>
      obtain ⟨parts, names, passed⟩ := (validateUrlSyntactic_ok lib url host).mp checked
      have split : lib.urlsplit url ≠ none := by simp [names.split]
      have same (other : SplitUrl) (found : Text) (called : Names lib url other found) :
          other = parts ∧ found = host := by
        obtain rfl := Option.some.inj (called.split.symm.trans names.split)
        exact ⟨rfl, Option.some.inj (called.hostname.symm.trans names.hostname)⟩
      have causes : (lib.urlsplit url = none ∨ ∃ parts host, Names lib url parts host ∧
          (lib.ipAddress host = none ∧ resolve host = .malformed ∨
            (∃ ip, Resolves lib resolve host ip) ∧ parts.port = none)) ↔
          lib.ipAddress host = none ∧ resolve host = .malformed ∨
            (∃ ip, Resolves lib resolve host ip) ∧ parts.port = none := by
        constructor
        · rintro (bad | ⟨other, found, called, cause⟩)
          · exact absurd bad split
          · obtain ⟨rfl, rfl⟩ := same other found called
            exact cause
        · intro cause
          exact Or.inr ⟨parts, host, names, cause⟩
      rw [causes, ← chooseIp_raised]
      simp only [← chooseIp_ok lib resolve host _ passed]
      rw [names.split]
      cases chosen : chooseIp lib resolve host with
      | error error => simp [bind, Except.bind, chosen]
      | ok ip =>
          cases ported : parts.port with
          | none => simp [bind, Except.bind, chosen, ported]
          | some value => simp [bind, Except.bind, chosen, ported]

end Hops

/-- These characters end or divide the authority of a URL. -/
def authorityMarks : Text := ['@', '/', '?', '#']

/-- A part of a URL is absent or starts with its mark. -/
def Marked (marks part : Text) : Prop := part = [] ∨ ∃ c ∈ marks, ∃ tail, part = c :: tail

/-- The authority of the URL is the address, with at most a port: no user information, and nothing
that the address or the port could open. -/
def GoesTo (url scheme ip : Text) : Prop :=
  ∃ port rest, url = scheme ++ "://".toList ++ (hostLiteral ip ++ port) ++ rest ∧
    (port = [] ∨ ∃ number, port = ':' :: natText number) ∧
    (∀ c ∈ hostLiteral ip ++ port, c ∉ authorityMarks) ∧ Marked ['/', '?', '#'] rest

theorem Marked.append {marks first second : Text} (left : Marked marks first)
    (right : Marked marks second) : Marked marks (first ++ second) := by
  rcases left with rfl | ⟨c, mark, tail, rfl⟩
  · exact right
  · exact Or.inr ⟨c, mark, tail ++ second, rfl⟩

theorem urlunsplit_marked (scheme netloc path query fragment : Text) (filled : scheme ≠ []) :
    ∃ rest, urlunsplit scheme netloc path query fragment =
        scheme ++ "://".toList ++ netloc ++ rest ∧ Marked ['/', '?', '#'] rest := by
  have opened : "://".toList = [':', '/', '/'] := rfl
  have way : Marked ['/', '?', '#'] (if path ≠ [] ∧ path.head? ≠ some '/' then '/' :: path else path) := by
    split
    · exact Or.inr ⟨'/', by simp, path, rfl⟩
    · next plain =>
        cases path with
        | nil => exact Or.inl rfl
        | cons c tail =>
            have slash : c = '/' := by simpa using plain
            exact Or.inr ⟨c, by simp [slash], tail, rfl⟩
  have asked : Marked ['/', '?', '#'] (if query = [] then [] else '?' :: query) := by
    split
    · exact Or.inl rfl
    · exact Or.inr ⟨'?', by simp, query, rfl⟩
  have marked : Marked ['/', '?', '#'] (if fragment = [] then [] else '#' :: fragment) := by
    split
    · exact Or.inl rfl
    · exact Or.inr ⟨'#', by simp, fragment, rfl⟩
  refine ⟨_, ?_, (way.append asked).append marked⟩
  unfold urlunsplit
  dsimp only
  rw [if_neg filled, opened]
  by_cases noQuery : query = []
  · by_cases noFragment : fragment = []
    · simp [noQuery, noFragment]
    · simp [noQuery, noFragment]
  · by_cases noFragment : fragment = []
    · simp [noQuery, noFragment]
    · simp [noQuery, noFragment]

/-- The pinned URL goes to the address that it is pinned to. -/
theorem pinUrlToIp_goesTo (parts : SplitUrl) (ip : Text) (filled : parts.scheme ≠ [])
    (bare : ∀ c ∈ ip, c ∉ authorityMarks) : GoesTo (pinUrlToIp parts ip) parts.scheme ip := by
  obtain ⟨rest, whole, marked⟩ := urlunsplit_marked parts.scheme
    (hostLiteral ip ++ portPart parts.port.join) parts.path parts.query parts.fragment filled
  have port : portPart parts.port.join = [] ∨ ∃ number, portPart parts.port.join = ':' :: natText number := by
    unfold portPart
    split
    · exact Or.inr ⟨_, rfl⟩
    · exact Or.inl rfl
  refine ⟨_, rest, whole, port, ?_, marked⟩
  have digit (number : Nat) (c : Char) (member : c ∈ natText number) : c ∉ authorityMarks := by
    intro mark
    have other : c.isDigit = false := by
      simp only [authorityMarks, List.mem_cons, List.not_mem_nil, or_false] at mark
      rcases mark with rfl | rfl | rfl | rfl <;> decide
    exact natText_not_mem other member
  intro c member
  rcases List.mem_append.mp member with inHost | inPort
  · unfold hostLiteral at inHost
    split at inHost
    · rcases List.mem_cons.mp inHost with rfl | inHost
      · decide
      · rcases List.mem_append.mp inHost with inIp | close
        · exact bare c inIp
        · rw [List.mem_singleton.mp close]
          decide
    · exact bare c inHost
  · rcases port with none' | ⟨number, some'⟩
    · simp [none'] at inPort
    · rw [some'] at inPort
      rcases List.mem_cons.mp inPort with rfl | inNumber
      · decide
      · exact digit number c inNumber

section Fetch

variable (lib : UrlLibrary) (options : FetchOptions)

/-- The hop sends its request for the address of its host. -/
structure Sends (world : HopWorld) (current : Text) (parts : SplitUrl) (host ip : Text) : Prop where
  names : Names lib current parts host
  resolves : Resolves lib world.resolve host ip
  port : parts.port ≠ none

/-- The hop answers with a redirect to the next URL. -/
def Follows (world : HopWorld) (current next : Text) : Prop :=
  ∃ parts host ip response location, Sends lib world current parts host ip ∧
    world.reply (hopRequest options parts ip host) = .response response ∧
    response.isRedirect = true ∧ response.location = some location ∧ location ≠ [] ∧
    lib.join current location = some next

/-- A library function raises at the hop. -/
inductive HopRaises (world : HopWorld) (current : Text) : Prop where
  | split (malformed : lib.urlsplit current = none)
  | resolve (parts : SplitUrl) (host : Text) (names : Names lib current parts host)
      (name : lib.ipAddress host = none) (malformed : world.resolve host = .malformed)
  | port (parts : SplitUrl) (host ip : Text) (names : Names lib current parts host)
      (resolves : Resolves lib world.resolve host ip) (malformed : parts.port = none)
  | send (parts : SplitUrl) (host ip : Text) (sends : Sends lib world current parts host ip)
      (malformed : world.reply (hopRequest options parts ip host) = .malformed)
  | join (parts : SplitUrl) (host ip : Text) (response : Response) (location : Text)
      (sends : Sends lib world current parts host ip)
      (answers : world.reply (hopRequest options parts ip host) = .response response)
      (redirects : response.isRedirect = true) (stated : response.location = some location)
      (filled : location ≠ []) (malformed : lib.join current location = none)

/-- A hop without a request ends the fetch in an error; the other ones go by the reply. -/
theorem fetchHop_cases (world : HopWorld) (start current : Text) :
    (∃ error, fetchHop lib options world start current = (none, .done (.error error)) ∧
        validateUrl lib world.resolve current = .error error) ∨
      ∃ parts host ip, Sends lib world current parts host ip ∧
        fetchHop lib options world start current =
          (some ⟨current, hopRequest options parts ip host⟩,
            match world.reply (hopRequest options parts ip host) with
            | .malformed => .done (.error .raised)
            | .httpError => .done (.error (.transport current))
            | .response response => handleResponse lib options start current response) := by
  cases checked : validateUrl lib world.resolve current with
  | error error => exact Or.inl ⟨error, by simp [fetchHop, checked], rfl⟩
  | ok pair =>
      obtain ⟨ip, host⟩ := pair
      obtain ⟨parts, names, resolves, port⟩ := (validateUrl_ok lib _ _ _ _).mp checked
      refine Or.inr ⟨parts, host, ip, ⟨names, resolves, port⟩, ?_⟩
      rw [fetchHop, checked, names.split]
      dsimp only
      cases world.reply (hopRequest options parts ip host) <;> rfl

/-- The host and the address of a hop are settled by its URL and its resolver. -/
theorem Sends.unique {world : HopWorld} {current : Text} {parts other : SplitUrl}
    {host otherHost ip otherIp : Text} (first : Sends lib world current parts host ip)
    (second : Sends lib world current other otherHost otherIp) :
    parts = other ∧ host = otherHost ∧ ip = otherIp := by
  obtain rfl := Option.some.inj (first.names.split.symm.trans second.names.split)
  obtain rfl := Option.some.inj (first.names.hostname.symm.trans second.names.hostname)
  refine ⟨rfl, rfl, ?_⟩
  have accepts (ip : Text) (sends : Sends lib world current parts host ip) :=
    (validateUrl_ok lib world.resolve current ip host).mpr
      ⟨parts, sends.names, sends.resolves, sends.port⟩
  have same := (accepts ip first).symm.trans (accepts otherIp second)
  exact (Prod.mk.inj (Except.ok.inj same)).1

/-- A response ends the fetch with an exception exactly when its redirect cannot be joined. -/
theorem handleResponse_raised (start current : Text) (response : Response) :
    handleResponse lib options start current response = .done (.error .raised) ↔
      response.isRedirect = true ∧ ∃ location, response.location = some location ∧ location ≠ [] ∧
        lib.join current location = none := by
  unfold handleResponse
  by_cases redirects : response.isRedirect = true
  · rw [if_pos redirects]
    cases stated : response.location with
    | none => simp
    | some location =>
        cases location with
        | nil => simp
        | cons c rest =>
            dsimp only
            cases joined : lib.join current (c :: rest) with
            | none => simp [redirects, joined]
            | some next => simp [joined]
  · rw [if_neg redirects]
    refine iff_of_false ?_ (fun both => redirects both.1)
    split
    · simp
    · intro same
      obtain done := HopOutcome.done.inj same
      cases checked : checkContentType lib.table (response.contentType.getD [])
          options.allowedContentTypes with
      | error error =>
          have kind : error ≠ .raised := by
            unfold checkContentType at checked
            dsimp only at checked
            split at checked
            · rintro rfl
              simp at checked
            · contradiction
          rw [checked] at done
          exact kind (Except.error.inj done)
      | ok bare =>
          rw [checked] at done
          cases read : readCapped options.maxBytes 0 response.chunks with
          | error error =>
              have kind : error ≠ .raised := by
                intro same
                subst same
                have never (total : Nat) (chunks : List (List UInt8)) :
                    readCapped options.maxBytes total chunks ≠ .error .raised := by
                  induction chunks generalizing total with
                  | nil => simp [readCapped]
                  | cons chunk chunks ih =>
                      rw [readCapped]
                      split
                      · simp
                      · intro raised
                        have later := ih (total + chunk.length)
                        cases rest : readCapped options.maxBytes (total + chunk.length) chunks with
                        | error error =>
                            rw [rest] at raised later
                            exact later raised
                        | ok body =>
                            rw [rest] at raised
                            contradiction
                exact never 0 response.chunks read
              rw [read] at done
              exact kind (Except.error.inj done)
          | ok body =>
              rw [read] at done
              contradiction

theorem handleResponse_follow (start current next : Text) (response : Response) :
    handleResponse lib options start current response = .follow next ↔
      response.isRedirect = true ∧ ∃ location, response.location = some location ∧ location ≠ [] ∧
        lib.join current location = some next := by
  unfold handleResponse
  by_cases redirects : response.isRedirect = true
  · rw [if_pos redirects]
    cases stated : response.location with
    | none => simp
    | some location =>
        cases location with
        | nil => simp
        | cons c rest =>
            dsimp only
            cases joined : lib.join current (c :: rest) with
            | none => simp [joined]
            | some found => simp [redirects, joined]
  · rw [if_neg redirects]
    refine iff_of_false ?_ (fun both => redirects both.1)
    split <;> simp

/-- The hop ends in an exception exactly when a library function raises at it. -/
theorem fetchHop_raised (world : HopWorld) (start current : Text) :
    (fetchHop lib options world start current).2 = .done (.error .raised) ↔
      HopRaises lib options world current := by
  rcases fetchHop_cases lib options world start current with
    ⟨error, ends, refused⟩ | ⟨parts, host, ip, sends, ends⟩
  · rw [ends]
    have only := validateUrl_raised lib world.resolve current
    rw [refused, Except.error.injEq] at only
    have never (parts : SplitUrl) (host ip : Text) : ¬Sends lib world current parts host ip := by
      intro sends
      have accepted := (validateUrl_ok lib world.resolve current ip host).mpr
        ⟨parts, sends.names, sends.resolves, sends.port⟩
      rw [refused] at accepted
      contradiction
    rw [HopOutcome.done.injEq, Except.error.injEq, only]
    constructor
    · rintro (bad | ⟨parts, host, names, ⟨name, bad⟩ | ⟨⟨ip, resolves⟩, bad⟩⟩)
      · exact .split bad
      · exact .resolve parts host names name bad
      · exact .port parts host ip names resolves bad
    · intro raises
      cases raises with
      | split bad => exact Or.inl bad
      | resolve parts host names name bad => exact Or.inr ⟨parts, host, names, Or.inl ⟨name, bad⟩⟩
      | port parts host ip names resolves bad =>
          exact Or.inr ⟨parts, host, names, Or.inr ⟨⟨ip, resolves⟩, bad⟩⟩
      | send parts host ip sends bad => exact absurd sends (never parts host ip)
      | join parts host ip response location sends => exact absurd sends (never parts host ip)
  · rw [ends]
    have accepted := (validateUrl_ok lib world.resolve current ip host).mpr
      ⟨parts, sends.names, sends.resolves, sends.port⟩
    have quiet := validateUrl_raised lib world.resolve current
    rw [accepted] at quiet
    constructor
    · intro raised
      cases answers : world.reply (hopRequest options parts ip host) with
      | malformed => exact .send parts host ip sends answers
      | httpError => simp [answers] at raised
      | response response =>
          rw [answers] at raised
          obtain ⟨redirects, location, stated, filled, bad⟩ :=
            (handleResponse_raised lib options start current response).mp raised
          exact .join parts host ip response location sends answers redirects stated filled bad
    · intro raises
      have loud : ¬(lib.urlsplit current = none ∨ ∃ parts host, Names lib current parts host ∧
          (lib.ipAddress host = none ∧ world.resolve host = .malformed ∨
            (∃ ip, Resolves lib world.resolve host ip) ∧ parts.port = none)) := by
        rw [← quiet]
        simp
      cases raises with
      | split bad => exact absurd (Or.inl bad) loud
      | resolve other found names name bad =>
          exact absurd (Or.inr ⟨other, found, names, Or.inl ⟨name, bad⟩⟩) loud
      | port other found literal names resolves bad =>
          exact absurd (Or.inr ⟨other, found, names, Or.inr ⟨⟨literal, resolves⟩, bad⟩⟩) loud
      | send other found literal called bad =>
          obtain ⟨rfl, rfl, rfl⟩ := Sends.unique lib sends called
          rw [bad]
      | join other found literal response location called answers redirects stated filled bad =>
          obtain ⟨rfl, rfl, rfl⟩ := Sends.unique lib sends called
          rw [answers]
          exact (handleResponse_raised lib options start current response).mpr
            ⟨redirects, location, stated, filled, bad⟩

theorem fetchHop_follow (world : HopWorld) (start current next : Text) :
    (fetchHop lib options world start current).2 = .follow next ↔
      Follows lib options world current next := by
  rcases fetchHop_cases lib options world start current with
    ⟨error, ends, refused⟩ | ⟨parts, host, ip, sends, ends⟩
  · rw [ends]
    refine iff_of_false (by simp) ?_
    rintro ⟨parts, host, ip, -, -, sends, -⟩
    have accepted := (validateUrl_ok lib world.resolve current ip host).mpr
      ⟨parts, sends.names, sends.resolves, sends.port⟩
    rw [refused] at accepted
    contradiction
  · rw [ends]
    constructor
    · intro followed
      cases answers : world.reply (hopRequest options parts ip host) with
      | malformed => simp [answers] at followed
      | httpError => simp [answers] at followed
      | response response =>
          rw [answers] at followed
          obtain ⟨redirects, location, stated, filled, joined⟩ :=
            (handleResponse_follow lib options start current next response).mp followed
          exact ⟨parts, host, ip, response, location, sends, answers, redirects, stated, filled, joined⟩
    · rintro ⟨other, found, literal, response, location, called, answers, redirects, stated, filled,
        joined⟩
      obtain ⟨rfl, rfl, rfl⟩ := Sends.unique lib sends called
      rw [answers]
      exact (handleResponse_follow lib options start current next response).mpr
        ⟨redirects, location, stated, filled, joined⟩

/-- The body that is read is whole and within the cap. -/
theorem readCapped_ok (maxBytes total : Nat) (chunks : List (List UInt8)) (body : List UInt8)
    (within : total ≤ maxBytes) (read : readCapped maxBytes total chunks = .ok body) :
    body = chunks.flatten ∧ total + body.length ≤ maxBytes := by
  induction chunks generalizing total body with
  | nil =>
      obtain rfl := Except.ok.inj read
      exact ⟨rfl, within⟩
  | cons chunk chunks ih =>
      rw [readCapped] at read
      split at read
      · contradiction
      · next fits =>
          obtain ⟨rest, later, rfl⟩ := (map_eq_ok_iff _ _ _).mp read
          obtain ⟨rfl, bound⟩ := ih (total + chunk.length) rest (by omega) later
          refine ⟨by simp, ?_⟩
          rw [List.length_append]
          omega

/-- The result holds the whole body of a successful response with an allowed media type or none. -/
structure Accepts (response : Response) (result : FetchResult) : Prop where
  success : 200 ≤ response.statusCode ∧ response.statusCode ≤ 299
  mediaType : result.contentType = bareType lib.table (response.contentType.getD [])
  allowed : result.contentType = [] ∨ result.contentType ∈ options.allowedContentTypes
  body : response.chunks.flatten.length ≤ options.maxBytes
  text : result.text = lib.decode response.encoding response.chunks.flatten

theorem handleResponse_ok (start current : Text) (response : Response) (result : FetchResult)
    (accepted : handleResponse lib options start current response = .done (.ok result)) :
    Accepts lib options response result ∧ result.url = start ∧ result.finalUrl = current := by
  unfold handleResponse at accepted
  split at accepted
  · split at accepted
    · simp at accepted
    · simp at accepted
    · split at accepted <;> simp at accepted
  · split at accepted
    · simp at accepted
    · next success =>
        have done := HopOutcome.done.inj accepted
        obtain ⟨bare, checked, rest⟩ := bind_eq_ok done
        obtain ⟨body, read, same⟩ := bind_eq_ok rest
        obtain rfl := Except.ok.inj same
        obtain ⟨rfl, bound⟩ := readCapped_ok options.maxBytes 0 _ body (Nat.zero_le _) read
        have status : response.isSuccess = true := by simpa using success
        rw [Response.isSuccess, Bool.and_eq_true, decide_eq_true_eq, decide_eq_true_eq] at status
        unfold checkContentType at checked
        dsimp only at checked
        split at checked
        · contradiction
        · next kept =>
            obtain rfl := Except.ok.inj checked
            refine ⟨⟨status, rfl, ?_, by omega, rfl⟩, rfl, rfl⟩
            by_contra neither
            rw [not_or] at neither
            exact kept neither

/-- The request goes to the address that the guard found for its hop. -/
def Guarded (world : HopWorld) (sent : Sent) : Prop :=
  ∃ parts host ip, Names lib sent.current parts host ∧ Resolves lib world.resolve host ip ∧
    SafeLiteral lib ip ∧ GoesTo sent.request.url parts.scheme ip

theorem fetchHop_guarded (world : HopWorld) (start current : Text) (sent : Sent)
    (hostsBare : ∀ url parts host, lib.urlsplit url = some parts → parts.hostname = some host →
      ∀ c ∈ host, c ∉ authorityMarks)
    (addressesBare : ∀ host found, world.resolve host = .addresses found →
      ∀ address ∈ found, ∀ c ∈ address, c ∉ authorityMarks)
    (asked : (fetchHop lib options world start current).1 = some sent) : Guarded lib world sent := by
  rcases fetchHop_cases lib options world start current with
    ⟨error, ends, -⟩ | ⟨parts, host, ip, sends, ends⟩
  · simp [ends] at asked
  · rw [ends] at asked
    obtain rfl := Option.some.inj asked
    refine ⟨parts, host, ip, sends.names, sends.resolves, sends.resolves.safe, ?_⟩
    apply pinUrlToIp_goesTo
    · intro empty
      have allowed := sends.names.scheme
      rw [empty] at allowed
      exact absurd allowed (by simp [allowedSchemes, strLower, lowerAfter])
    · rcases sends.resolves with ⟨rfl, -⟩ | ⟨-, found, answer, first, -⟩
      · exact hostsBare current parts ip sends.names.split sends.names.hostname
      · exact addressesBare host found answer ip (List.mem_of_head? first)

section Loop

variable (worlds : Nat → HopWorld) (start : Text)

theorem fetchLoop_length (passes hop : Nat) (current : Text) :
    (fetchLoop lib options worlds start passes hop current).1.length ≤ passes := by
  induction passes generalizing hop current with
  | zero => exact le_rfl
  | succ passes ih =>
      rw [fetchLoop]
      generalize fetchHop lib options (worlds hop) start current = asked
      obtain ⟨sent, outcome⟩ := asked
      have single : sent.toList.length ≤ 1 := by cases sent <;> simp
      cases outcome with
      | done result => exact single.trans (by omega)
      | follow next =>
          have rest := ih (hop + 1) next
          simp only [List.length_append]
          omega

/-- A hop that leads on sends exactly one request. -/
theorem fetchHop_sent_of_follow (world : HopWorld) (current next : Text)
    (follows : (fetchHop lib options world start current).2 = .follow next) :
    ∃ sent, (fetchHop lib options world start current).1 = some sent := by
  rcases fetchHop_cases lib options world start current with
    ⟨error, ends, -⟩ | ⟨parts, host, ip, -, ends⟩
  · simp [ends] at follows
  · exact ⟨_, by rw [ends]⟩

/-- What holds of every hop's request holds along the loop. -/
theorem fetchLoop_forall (property : Nat → Sent → Prop)
    (each : ∀ hop current sent,
      (fetchHop lib options (worlds hop) start current).1 = some sent → property hop sent)
    (passes hop place : Nat) (current : Text) (sent : Sent)
    (found : (fetchLoop lib options worlds start passes hop current).1[place]? = some sent) :
    property (hop + place) sent := by
  induction passes generalizing hop place current with
  | zero => simp [fetchLoop] at found
  | succ passes ih =>
      rw [fetchLoop] at found
      have now := each hop current
      have single := fetchHop_sent_of_follow lib options start (worlds hop) current
      generalize fetchHop lib options (worlds hop) start current = asked at found now single
      obtain ⟨first, outcome⟩ := asked
      cases outcome with
      | done result =>
          cases first with
          | none => simp at found
          | some first =>
              cases place with
              | zero =>
                  obtain rfl : first = sent := by simpa using found
                  exact now first rfl
              | succ place => simp at found
      | follow next =>
          obtain ⟨first, rfl⟩ := single next rfl
          cases place with
          | zero =>
              obtain rfl : first = sent := by simpa using found
              exact now first rfl
          | succ place =>
              have later := ih (hop + 1) place next (by simpa using found)
              rw [show hop + (place + 1) = hop + 1 + place by omega]
              exact later

/-- A result comes from the response to the last request. -/
theorem fetchLoop_ok (passes hop : Nat) (current : Text) (result : FetchResult)
    (returned : (fetchLoop lib options worlds start passes hop current).2 = .ok result) :
    ∃ place sent response,
      (fetchLoop lib options worlds start passes hop current).1[place]? = some sent ∧
        (worlds (hop + place)).reply sent.request = .response response ∧
        Accepts lib options response result ∧ result.url = start ∧ result.finalUrl = sent.current := by
  induction passes generalizing hop current with
  | zero => simp [fetchLoop] at returned
  | succ passes ih =>
      rw [fetchLoop] at returned ⊢
      have kinds := fetchHop_cases lib options (worlds hop) start current
      have single := fetchHop_sent_of_follow lib options start (worlds hop) current
      generalize fetchHop lib options (worlds hop) start current = asked at returned kinds single ⊢
      obtain ⟨first, outcome⟩ := asked
      cases outcome with
      | done answer =>
          obtain rfl : answer = .ok result := returned
          rcases kinds with ⟨error, ends, -⟩ | ⟨parts, host, ip, -, ends⟩
          · simp at ends
          · obtain ⟨rfl, outcome⟩ := Prod.mk.inj ends
            cases answers : (worlds hop).reply (hopRequest options parts ip host) with
            | malformed => simp [answers] at outcome
            | httpError => simp [answers] at outcome
            | response response =>
                rw [answers] at outcome
                obtain ⟨accepts, url, final⟩ :=
                  handleResponse_ok lib options start current response result outcome.symm
                exact ⟨0, _, response, rfl, answers, accepts, url, final⟩
      | follow next =>
          obtain ⟨first, rfl⟩ := single next rfl
          obtain ⟨place, sent, response, found, answers, rest⟩ := ih (hop + 1) next returned
          refine ⟨place + 1, sent, response, by simpa using found, ?_, rest⟩
          rw [show hop + (place + 1) = hop + 1 + place by omega]
          exact answers

end Loop

/-- Every request of a fetch goes to a guarded address of its hop, and a result holds the whole body
of a successful response. -/
theorem fetchUrl_guarded (worlds : Nat → HopWorld) (url : Text)
    (hostsBare : ∀ url parts host, lib.urlsplit url = some parts → parts.hostname = some host →
      ∀ c ∈ host, c ∉ authorityMarks)
    (addressesBare : ∀ hop host found, (worlds hop).resolve host = .addresses found →
      ∀ address ∈ found, ∀ c ∈ address, c ∉ authorityMarks) :
    (fetchUrl lib options worlds url).1.length ≤ options.maxRedirects + 1 ∧
      (∀ (hop : Nat) sent, (fetchUrl lib options worlds url).1[hop]? = some sent →
        Guarded lib (worlds hop) sent) ∧
      ∀ result, (fetchUrl lib options worlds url).2 = .ok result →
        ∃ (hop : Nat) (sent : Sent) (response : Response),
          (fetchUrl lib options worlds url).1[hop]? = some sent ∧
            (worlds hop).reply sent.request = .response response ∧
            Accepts lib options response result ∧ result.url = url ∧
            result.finalUrl = sent.current := by
  refine ⟨fetchLoop_length lib options worlds url _ 0 url, ?_, ?_⟩
  · intro hop sent found
    have each (hop : Nat) (current : Text) (sent : Sent)
        (asked : (fetchHop lib options (worlds hop) url current).1 = some sent) :
        Guarded lib (worlds hop) sent :=
      fetchHop_guarded lib options (worlds hop) url current sent hostsBare (addressesBare hop) asked
    have guarded := fetchLoop_forall lib options worlds url (fun hop => Guarded lib (worlds hop))
      each (options.maxRedirects + 1) 0 hop url sent found
    rwa [Nat.zero_add] at guarded
  · intro result returned
    have source := fetchLoop_ok lib options worlds url (options.maxRedirects + 1) 0 url result returned
    simp only [Nat.zero_add] at source
    exact source

end Fetch

section Sample

/-- These are the parts of a URL of the sample host. -/
def sampleParts (path : Text) : SplitUrl :=
  ⟨"http".toList, "a.example".toList, path, [], [], some "a.example".toList, some none⟩

def sampleAddress : Text := "93.184.216.34".toList

/-- This library knows the two pages of the sample host and its address. -/
def sampleLibrary : UrlLibrary where
  table := .symbols
  urlsplit url :=
    if url = "http://a.example/x".toList then some (sampleParts "/x".toList)
    else if url = "http://a.example/y".toList then some (sampleParts "/y".toList)
    else none
  join _ location :=
    if location = "/y".toList then some "http://a.example/y".toList else none
  ipAddress text := if text = sampleAddress then some (.v4 0x5DB8D822) else none
  isLoopback _ := false
  isPrivate _ := false
  isLinkLocal _ := false
  isUnspecified _ := false
  isReserved _ := false
  isMulticast _ := false
  decode _ body := body.map fun byte => Char.ofNat byte.toNat

def sampleOptions : FetchOptions := ⟨5, 1, ["text/plain".toList], "agent".toList⟩

/-- The first hop redirects, the second one has a page. -/
def sampleWorlds (hop : Nat) : HopWorld where
  resolve host := if host = "a.example".toList then .addresses [sampleAddress] else .gaierror
  reply _ :=
    .response (if hop = 0 then ⟨301, some "/y".toList, none, none, []⟩
      else ⟨200, none, some "text/plain; charset=utf-8".toList, none, [[111], [107]]⟩)

theorem sampleLibrary_hostsBare (url : Text) (parts : SplitUrl) (host : Text)
    (split : sampleLibrary.urlsplit url = some parts) (named : parts.hostname = some host) :
    ∀ c ∈ host, c ∉ authorityMarks := by
  have same : host = "a.example".toList := by
    unfold sampleLibrary at split
    dsimp only at split
    split at split
    · obtain rfl := Option.some.inj split
      exact (Option.some.inj named).symm
    · split at split
      · obtain rfl := Option.some.inj split
        exact (Option.some.inj named).symm
      · contradiction
  rw [same]
  simp [authorityMarks]

theorem sampleWorlds_addressesBare (hop : Nat) (host : Text) (found : List Text)
    (answer : (sampleWorlds hop).resolve host = .addresses found) :
    ∀ address ∈ found, ∀ c ∈ address, c ∉ authorityMarks := by
  have checked : sampleAddress.all (fun c => !authorityMarks.contains c) = true := by decide
  simp only [sampleWorlds] at answer
  split at answer
  · rw [← Resolution.addresses.inj answer, List.forall_mem_singleton]
    intro c member
    simpa using List.all_eq_true.mp checked c member
  · exact absurd answer (by simp)

/-- A redirect on the sample host sends two requests, both to its address. -/
theorem fetchUrl_guarded_redirect :
    (fetchUrl sampleLibrary sampleOptions sampleWorlds "http://a.example/x".toList).1.length = 2 ∧
      (fetchUrl sampleLibrary sampleOptions sampleWorlds "http://a.example/x".toList).2 =
        .ok ⟨"http://a.example/x".toList, "http://a.example/y".toList, "text/plain".toList,
          "ok".toList⟩ ∧
      ∀ (hop : Nat) sent,
        (fetchUrl sampleLibrary sampleOptions sampleWorlds "http://a.example/x".toList).1[hop]? =
          some sent → Guarded sampleLibrary (sampleWorlds hop) sent := by
  refine ⟨by decide, by decide, ?_⟩
  exact (fetchUrl_guarded sampleLibrary sampleOptions sampleWorlds "http://a.example/x".toList
    sampleLibrary_hostsBare sampleWorlds_addressesBare).2.1

end Sample

end LumenCopilot.Web

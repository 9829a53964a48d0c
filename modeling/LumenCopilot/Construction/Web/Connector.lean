import LumenCopilot.Construction.Web.Fetch

namespace LumenCopilot.Web

open Python

/-- This is `ElementTree.Element` with the parts that the parsers read. -/
inductive Element where
  | node (tag : Text) (attributes : List (Text × Text)) (text : Option Text) (children : List Element)

def Element.tag : Element → Text
  | .node tag _ _ _ => tag

def Element.text : Element → Option Text
  | .node _ _ text _ => text

def Element.children : Element → List Element
  | .node _ _ _ children => children

/-- This is `element.get(name)`. -/
def Element.get (name : Text) : Element → Option Text
  | .node _ attributes _ _ => (attributes.find? fun entry => entry.1 = name).map Prod.snd

mutual

/-- This is `element.iter()`, the element and all that is below it in document order. -/
def Element.iter : Element → List Element
  | .node tag attributes text children =>
      .node tag attributes text children :: iterAll children

def iterAll : List Element → List Element
  | [] => []
  | element :: rest => element.iter ++ iterAll rest

end

/-- The HTML parser reports tags and text. -/
inductive HtmlEvent where
  | startTag (tag : Text)
  | endTag (tag : Text)
  | data (text : Text)
  deriving DecidableEq

/-- These are the parsers of the standard library. No XML element is a `ParseError`. -/
structure ParserLibrary where
  table : CaseTable
  fromstring : Text → Option Element
  htmlEvents : Text → List HtmlEvent

/-- This is `MAX_CHILD_URLS`. -/
def maxChildUrls : Nat := 50

/-- This is `_WS_RUN.sub(" ", text)`, inside or outside a run of spaces. -/
def collapseSpaces : Bool → Text → Text
  | _, [] => []
  | inside, c :: rest =>
      if isSpace c && c != '\n' then
        if inside then collapseSpaces true rest else ' ' :: collapseSpaces true rest
      else c :: collapseSpaces false rest

/-- This is `_BLANK_LINES.sub("\n\n", text)`, inside or outside a match. -/
def collapseBlankLines : Bool → Text → Text
  | _, [] => []
  | inside, c :: rest =>
      if inside && isSpace c then collapseBlankLines true rest
      else if c == '\n' && (rest.takeWhile isSpace).contains '\n' then
        '\n' :: '\n' :: collapseBlankLines true rest
      else c :: collapseBlankLines false rest

/-- This is `_normalize_ws`. -/
def normalizeWs (text : Text) : Text :=
  let collapsed := collapseBlankLines false (collapseSpaces false text)
  strip (join ['\n'] ((collapsed.splitOn '\n').map strip))

/-- These tags are `_NON_CONTENT_TAGS`. -/
def nonContentTags : List Text :=
  ["script".toList, "style".toList, "noscript".toList, "template".toList, "svg".toList]

/-- These tags are `_BLOCK_TAGS`. -/
def blockTags : List Text :=
  ["p".toList, "div".toList, "br".toList, "li".toList, "tr".toList, "h1".toList, "h2".toList,
    "h3".toList, "h4".toList, "h5".toList, "h6".toList, "section".toList, "article".toList]

/-- This is the state of `_TextExtractor`. -/
structure TextExtractor where
  parts : Text
  skipDepth : Nat
  inTitle : Bool
  title : Text
  deriving DecidableEq

def TextExtractor.block (extractor : TextExtractor) (tag : Text) : TextExtractor :=
  if tag ∈ blockTags then { extractor with parts := extractor.parts ++ ['\n'] } else extractor

/-- These are `handle_starttag`, `handle_endtag` and `handle_data`. -/
def TextExtractor.handle (extractor : TextExtractor) : HtmlEvent → TextExtractor
  | .startTag tag =>
      if tag ∈ nonContentTags then { extractor with skipDepth := extractor.skipDepth + 1 }
      else
        let extractor :=
          if tag = "title".toList then { extractor with inTitle := true } else extractor
        extractor.block tag
  | .endTag tag =>
      if tag ∈ nonContentTags ∧ 0 < extractor.skipDepth then
        { extractor with skipDepth := extractor.skipDepth - 1 }
      else
        let extractor :=
          if tag = "title".toList then { extractor with inTitle := false } else extractor
        extractor.block tag
  | .data text =>
      if 0 < extractor.skipDepth then extractor
      else if extractor.inTitle then { extractor with title := extractor.title ++ text }
      else { extractor with parts := extractor.parts ++ text }

/-- This is `ExtractedPage`. -/
structure ExtractedPage where
  title : Text
  text : Text
  deriving DecidableEq

/-- This is `FeedItem`. -/
structure FeedItem where
  title : Text
  url : Text
  summary : Text
  deriving DecidableEq

section Extract

variable (lib : ParserLibrary)

/-- This is `extract_page_text`. -/
def extractPageText (content contentType : Text) : ExtractedPage :=
  let bare := bareType lib.table contentType
  if bare = "text/html".toList ∨ bare = "application/xhtml+xml".toList then
    let read := (lib.htmlEvents content).foldl TextExtractor.handle ⟨[], 0, false, []⟩
    ⟨normalizeWs read.title, normalizeWs read.parts⟩
  else
    let text := normalizeWs content
    ⟨((text.splitOn '\n').find? fun line => !isBlank line).getD [], text⟩

/-- This is `_localname`. -/
def localname (tag : Text) : Text :=
  strLower lib.table (tag.reverse.takeWhile (· != '}')).reverse

/-- This is `_iter_local`. -/
def iterLocal (parent : Element) (name : Text) : List Element :=
  parent.iter.filter fun element => localname lib element.tag = name

/-- This is `_child_text`. -/
def childText (parent : Element) (name : Text) : Text :=
  let found := parent.children.findSome? fun child =>
    if localname lib child.tag = name ∧ child.text.getD [] ≠ [] then child.text else none
  found.getD []

/-- This is one pass of the first loop of `_feed_link`. -/
def linkOf (child : Element) : Option Text :=
  if localname lib child.tag ≠ "link".toList then none
  else
    let href := (child.get "href".toList).getD []
    if href ≠ [] then
      let rel := (child.get "rel".toList).getD []
      let rel := strLower lib.table (if rel = [] then "alternate".toList else rel)
      if rel = "alternate".toList then some (strip href) else none
    else if strip (child.text.getD []) ≠ [] then some (strip (child.text.getD []))
    else none

/-- This is `_feed_link`. -/
def feedLink (entry : Element) : Text :=
  match entry.children.findSome? (linkOf lib) with
  | some link => link
  | none =>
      let found := entry.children.findSome? fun child =>
        let href := (child.get "href".toList).getD []
        if localname lib child.tag = "link".toList ∧ href ≠ [] then some (strip href) else none
      found.getD []

/-- This is the item of an entry that has a link. -/
def feedItem (entry : Element) : Option FeedItem :=
  let title := childText lib entry "title".toList
  let description := childText lib entry "description".toList
  let summary := if description = [] then childText lib entry "summary".toList else description
  let link := feedLink lib entry
  if link = [] then none else some ⟨normalizeWs title, link, normalizeWs summary⟩

/-- This is `parse_feed`. -/
def parseFeed (content : Text) : Option (List FeedItem) :=
  match lib.fromstring content with
  | none => none
  | some root =>
      let rootName := localname lib root.tag
      if rootName = "rss".toList then
        some (((iterLocal lib root "item".toList).filterMap (feedItem lib)).take maxChildUrls)
      else if rootName = "feed".toList then
        some (((iterLocal lib root "entry".toList).filterMap (feedItem lib)).take maxChildUrls)
      else none

/-- This is `parse_sitemap`. -/
def parseSitemap (content : Text) : Option (List Text) :=
  match lib.fromstring content with
  | none => none
  | some root =>
      let rootName := localname lib root.tag
      if rootName = "urlset".toList ∨ rootName = "sitemapindex".toList then
        let locs := root.iter.filterMap fun loc =>
          if localname lib loc.tag = "loc".toList ∧ strip (loc.text.getD []) ≠ [] then
            some (strip (loc.text.getD []))
          else none
        some (locs.take maxChildUrls)
      else none

end Extract

/-- This is `FetchedDoc`. -/
structure FetchedDoc where
  title : Text
  text : Text
  url : Text
  deriving DecidableEq

/-- A child is a feed item or a listed URL. -/
inductive Child where
  | item (item : FeedItem)
  | listed (url : Text)
  deriving DecidableEq

def Child.url : Child → Text
  | .item entry => entry.url
  | .listed url => url

/-- The first text that is not empty, or the last one. -/
def firstFilled (first second : Text) : Text := if first = [] then second else first

section Sync

variable (urls : UrlLibrary) (parsers : ParserLibrary) (options : FetchOptions)

/-- This is the document of a fetched child. -/
def Child.doc (child : Child) (fetched : FetchResult) : FetchedDoc :=
  let page := extractPageText parsers fetched.text fetched.contentType
  match child with
  | .item entry =>
      ⟨firstFilled entry.title (firstFilled page.title fetched.finalUrl),
        firstFilled page.text entry.summary, fetched.finalUrl⟩
  | .listed _ => ⟨firstFilled page.title fetched.finalUrl, page.text, fetched.finalUrl⟩

/-- These are `_docs_from_feed` and `_docs_from_urls` from one fetch of the sync on. -/
def docsFrom (worlds : Nat → Nat → HopWorld) : Nat → List Child → Except FetchError (List FetchedDoc)
  | _, [] => .ok []
  | fetch, child :: children =>
      match (fetchUrl urls options (worlds fetch) child.url).2 with
      | .ok fetched => (docsFrom worlds (fetch + 1) children).map (child.doc parsers fetched :: ·)
      | .error error =>
          if error.isConnectorError then docsFrom worlds (fetch + 1) children else .error error

/-- These are the children of a fetched root, if it is a feed or a sitemap that has some. -/
def childrenOf (root : FetchResult) : Option (List Child) :=
  match parseFeed parsers root.text with
  | some (first :: rest) => some ((first :: rest).map .item)
  | _ =>
      match parseSitemap parsers root.text with
      | some (first :: rest) => some ((first :: rest).map .listed)
      | _ => none

/-- This is `_expand`; the fetch of the root is the fetch 0 of the sync. -/
def expand (worlds : Nat → Nat → HopWorld) (root : FetchResult) :
    Except FetchError (List FetchedDoc) :=
  match childrenOf parsers root with
  | some children => docsFrom urls parsers options worlds 1 children
  | none =>
      let page := extractPageText parsers root.text root.contentType
      .ok [⟨firstFilled page.title root.finalUrl, page.text, root.finalUrl⟩]

/-- This is `sync` of a source with that URL; every fetch of the sync has its own hops. -/
def sync (worlds : Nat → Nat → HopWorld) (url : Text) : Except FetchError (List FetchedDoc) := do
  let root ← (fetchUrl urls options (worlds 0) url).2
  expand urls parsers options worlds root

end Sync

end LumenCopilot.Web

import XsdTypes.Place.Host
import XsdTypes.Text.Basic

/-!
# URLs

URLs are read, joined and written by the rules of the URL standard. Some schemes are special: a
backslash is a slash in them, their host is a domain or an address and may not be empty, their path
is never empty, and they have a default port. The scheme `file` is special too, but its host may be
empty and a drive letter at the start of its path is never taken away.
-/

namespace XsdTypes

/-- The kinds of scheme. -/
inductive SchemeKind where
  | file
  | special
  | other
  deriving DecidableEq, Repr

namespace SchemeKind

/-- The kind of a scheme in lower case. -/
def ofScheme (scheme : List Char) : SchemeKind :=
  match String.ofList scheme with
  | "file" => .file
  | "http" | "https" | "ws" | "wss" | "ftp" => .special
  | _ => .other

/-- Whether the rules for special schemes apply. -/
def isSpecial : SchemeKind → Bool
  | .other => false
  | _ => true

/-- Whether a character separates the segments of a path. -/
def isSlash (kind : SchemeKind) (c : Char) : Bool :=
  c == '/' || (kind.isSpecial && c == '\\')

end SchemeKind

/-- A URL in its parts, each as it is written. -/
structure Url where
  /-- The scheme in lower case. -/
  scheme : List Char
  /-- The user name and the password; empty if there is neither. -/
  userInfo : List Char
  /-- The host. A URL without an authority has none, and `file` URLs may have an empty one. -/
  host : Option (List Char)
  /-- The port, unless it is the default one. -/
  port : Option Nat
  /-- The path. It starts with a slash or is empty, or else it is a text without a structure. -/
  path : List Char
  /-- The query without its question mark. -/
  query : Option (List Char)
  /-- The fragment without its number sign. -/
  fragment : Option (List Char)
  deriving DecidableEq, Repr

namespace Url

/-- The port that a scheme has by default. -/
def defaultPort? (scheme : List Char) : Option Nat :=
  match String.ofList scheme with
  | "http" | "ws" => some 80
  | "https" | "wss" => some 443
  | "ftp" => some 21
  | _ => none

/-- Whether the path is a text without a structure. Such a URL has no authority, and no other URL is
seen from it. -/
def isFlat (url : Url) : Bool :=
  url.host.isNone && url.path.head? != some '/'

/-! ## Characters that count for nothing -/

/-- Whether a character counts for nothing wherever it stands. -/
def isIgnored (c : Char) : Bool :=
  c == '\t' || c == '\n' || c == '\r'

/-- The characters that count. -/
def ink (cs : List Char) : List Char :=
  cs.filter (!isIgnored ·)

/-- The text from its first character that counts. -/
def skipIgnored (cs : List Char) : List Char :=
  cs.dropWhile isIgnored

/-! ## Drive letters -/

/-- Whether a text is one letter and a colon or a bar. -/
def isDriveLetter : List Char → Bool
  | [c, d] => c.isAlpha && (d == ':' || d == '|')
  | _ => false

/-- Whether a text is one letter and a colon. -/
def isNormalDrive : List Char → Bool
  | [c, ':'] => c.isAlpha
  | _ => false

/-- Whether a text starts with a drive letter that ends there or at a separator. -/
def startsWithDrive : List Char → Bool
  | c :: d :: rest =>
    isDriveLetter [c, d] &&
      match rest with
      | [] => true
      | e :: _ => e == '/' || e == '\\' || e == '?' || e == '#'
  | _ => false

/-! ## Paths

A path is put together from left to right. What has been written of it is a text that ends with a
slash, except where a drive letter at its end has been kept. -/

/-- Whether a segment means the directory above; its dots may be encoded. -/
def isDoubleDot (segment : List Char) : Bool :=
  ["..", "%2e%2e", ".%2e", "%2e."].contains (String.ofList (segment.map Char.toLower))

/-- Whether a segment means the directory itself. -/
def isSingleDot (segment : List Char) : Bool :=
  [".", "%2e"].contains (String.ofList (segment.map Char.toLower))

/-- Whether a text ends with a slash. -/
def endsWithSlash (path : List Char) : Bool :=
  path.getLast? == some '/'

/-- A text with a slash at its end. -/
def withSlash (path : List Char) : List Char :=
  if endsWithSlash path then path else path ++ ['/']

/-- The path without what follows its last slash. A drive letter that ends a `file` path stays. -/
def dropLast (kind : SchemeKind) (path : List Char) : List Char :=
  if kind = .file && isNormalDrive (Chars.afterLast '/' path) then path
  else (path.reverse.dropWhile (· != '/')).reverse

/-- Whether the slash at the end of a path ends a segment that may be taken away: one that is no
drive letter. -/
def endsRemovable (path : List Char) : Bool :=
  let before := path.dropLast
  endsWithSlash path && before.contains '/' &&
    !startsWithDrive (Chars.afterLast '/' before ++ ['/'])

/-- The path of the directory above. -/
def above (kind : SchemeKind) (path : List Char) : List Char :=
  dropLast kind (if endsRemovable path then path.dropLast else path)

/-- A path in the making. -/
structure PathDraft where
  /-- What has been written. -/
  text : List Char
  /-- Whether its first segment was found to be a drive letter. -/
  onDrive : Bool := false

namespace PathDraft

/-- Writes a run of characters of a segment after the path `front` and the start of the segment. In
a `file` path that is nothing but a drive letter so far, a slash comes before the run. -/
def writeRun (kind : SchemeKind) (written : List Char × List Char) (run : List Char) :
    List Char × List Char :=
  let (front, segment) := written
  let run' := Percent.encode Percent.inPath run
  if kind = .file && !run.isEmpty && isNormalDrive ((front ++ segment).drop 1) then
    if segment.isEmpty then (front ++ ['/'], run') else (front, segment ++ '/' :: run')
  else (front, segment ++ run')

/-- Adds a segment, with a slash after it if it is `closed`. Ignored characters divide it into
runs. -/
def addSegment (kind : SchemeKind) (draft : PathDraft) (closed : Bool) (raw : List Char) :
    PathDraft :=
  let (front, segment) :=
    (Chars.splitAt isIgnored raw).foldl (writeRun kind) (draft.text, [])
  let ending := if closed then ['/'] else []
  if isDoubleDot segment then
    let up := above kind front
    { draft with text := if closed then withSlash up else up }
  else if isSingleDot segment then { draft with text := withSlash front }
  else
    match segment with
    | [c, d] =>
      if kind = .file && front.length == 1 && isDriveLetter [c, d] then
        ⟨front ++ [c, ':'] ++ ending, true⟩
      else { draft with text := front ++ segment ++ ending }
    | _ => { draft with text := front ++ segment ++ ending }

/-- Adds segments, with a slash after each but the last. -/
def addSegments (kind : SchemeKind) : PathDraft → List (List Char) → PathDraft
  | draft, [] => draft
  | draft, [last] => draft.addSegment kind false last
  | draft, piece :: pieces => addSegments kind (draft.addSegment kind true piece) pieces

/-- Adds a text. Several slashes at the start of a `file` path are one. -/
def addText (kind : SchemeKind) (draft : PathDraft) (cs : List Char) : PathDraft :=
  let draft := addSegments kind draft (Chars.splitAt kind.isSlash cs)
  if kind = .file then { draft with text := '/' :: draft.text.dropWhile (· == '/') } else draft

end PathDraft

/-- The path that a text makes after what stands before it. -/
def pathFrom (kind : SchemeKind) (before cs : List Char) : List Char :=
  (PathDraft.addText kind ⟨before, false⟩ cs).text

/-! ## Tails -/

/-- A text cut at its query and its fragment. -/
structure Tail where
  /-- The text before both. -/
  path : List Char
  /-- The text after the first question mark. -/
  query : Option (List Char)
  /-- The text after the first number sign. -/
  fragment : Option (List Char)

/-- A fragment as it is written in a URL. -/
def fragmentText (cs : List Char) : List Char :=
  Percent.encode Percent.inFragment (ink cs)

/-- Cuts a text at its query and its fragment and encodes these two. -/
def cutTail (kind : SchemeKind) (cs : List Char) : Tail :=
  let (front, fragment) :=
    match Chars.splitOnce '#' cs with
    | some (front, fragment) => (front, some (fragmentText fragment))
    | none => (cs, none)
  match Chars.splitOnce '?' front with
  | some (path, query) =>
    ⟨path, some (Percent.encode (Percent.inQuery kind.isSpecial) (ink query)), fragment⟩
  | none => ⟨front, none, fragment⟩

/-! ## Authorities -/

/-- The user name and the password in front of a host. The colon before an empty password is
dropped. -/
def userInfoText (cs : List Char) : List Char :=
  match Chars.splitOnce ':' cs with
  | some (name, []) => Percent.encode Percent.inUserInfo name
  | some (name, password) =>
    Percent.encode Percent.inUserInfo name ++ ':' :: Percent.encode Percent.inUserInfo password
  | none => Percent.encode Percent.inUserInfo cs

/-- A host and what follows it: a colon within brackets does not end it. -/
def splitHost (inBrackets : Bool) : List Char → List Char × List Char
  | [] => ([], [])
  | c :: cs =>
    if c = ':' ∧ !inBrackets then ([], c :: cs)
    else
      let inBrackets := if c = '[' then true else if c = ']' then false else inBrackets
      let (host, rest) := splitHost inBrackets cs
      (c :: host, rest)

/-- Reads a port and gives the text after it. -/
def port? (scheme : List Char) (cs : List Char) : Option (Option Nat × List Char) :=
  let digits := cs.takeWhile Char.isDigit
  let rest := cs.dropWhile Char.isDigit
  let endsHere :=
    match rest with
    | [] => true
    | c :: _ => c == '/' || c == '\\' || c == '?' || c == '#'
  if !endsHere then none
  else if digits.isEmpty then some (none, rest)
  else
    match Chars.numeral 10 65535 digits with
    | .error _ => none
    | .ok port => some (if some port = defaultPort? scheme then none else some port, rest)

/-- The URL that a scheme and the text after its two slashes make. -/
def afterSlashes? (scheme : List Char) (cs : List Char) : Option Url := do
  let kind := SchemeKind.ofScheme scheme
  let ends (c : Char) : Bool := kind.isSlash c || c == '?' || c == '#'
  let authority := cs.takeWhile fun c => !ends c
  let after := cs.dropWhile fun c => !ends c
  let (userInfo, hostAndPort) :=
    if authority.contains '@' then
      (some (authority.reverse.dropWhile (· != '@')).tail.reverse, Chars.afterLast '@' authority)
    else (none, authority)
  if userInfo = some [] ∧ hostAndPort.isEmpty ∧ !after.isEmpty then none
  let userInfo := userInfoText (userInfo.getD [])
  let (hostText, rest) := splitHost false hostAndPort
  let host ← if kind.isSpecial then Host.special? hostText else Host.other? hostText
  if host.isEmpty ∧ (!rest.isEmpty ∨ !userInfo.isEmpty) then none
  let (port, rest) ←
    match rest ++ after with
    | ':' :: rest => port? scheme rest
    | rest => some (none, rest)
  let tail := cutTail kind rest
  let path :=
    match tail.path with
    | [] => if kind.isSpecial then ['/'] else []
    | c :: cs => pathFrom kind ['/'] (if kind.isSlash c then cs else c :: cs)
  return ⟨scheme, userInfo, some host, port, path, tail.query, tail.fragment⟩

/-! ## The scheme `file`

Ignored characters still stand in these texts, because they can divide a drive letter from what
follows it. -/

/-- A `file` URL with the given host, and a text added to a path. -/
def fileUrl (host before cs : List Char) : Url :=
  let tail := cutTail .file cs
  ⟨"file".toList, [], some host, none, pathFrom .file before tail.path, tail.query,
    tail.fragment⟩

/-- Whether a character ends the host of a `file` URL. -/
def endsFileHost (c : Char) : Bool :=
  c == '/' || c == '\\' || c == '?' || c == '#'

/-- The `file` URL with a host after its two slashes. A drive letter is no host, `localhost` is the
empty host, and a path on a drive has no host. -/
def fileAfterSlashes? (cs : List Char) : Option Url := do
  let hostText := ink (cs.takeWhile (!endsFileHost ·))
  let rest := cs.dropWhile (!endsFileHost ·)
  if isDriveLetter hostText then return fileUrl [] ['/'] cs
  if hostText.isEmpty then return fileUrl [] ['/'] rest
  let host ← Host.special? hostText
  if host = "localhost".toList then return fileUrl [] ['/'] rest
  let tail := cutTail .file rest
  let cs :=
    match tail.path with
    | c :: cs => if SchemeKind.file.isSlash c then cs else c :: cs
    | [] => []
  let draft := PathDraft.addText .file ⟨['/'], false⟩ cs
  return ⟨"file".toList, [], some (if draft.onDrive then [] else host), none, draft.text,
    tail.query, tail.fragment⟩

/-- The first segment of a path. -/
def firstSegment (path : List Char) : List Char :=
  (path.drop 1).takeWhile (· != '/')

/-- The URL that a text means after the scheme `file`, or in a document whose URL has it. -/
def file? (base : Option Url) (cs : List Char) : Option Url :=
  match skipIgnored cs with
  | c :: rest =>
    if SchemeKind.file.isSlash c then
      match skipIgnored rest with
      | d :: rest' =>
        if SchemeKind.file.isSlash d then fileAfterSlashes? rest' else some (fromRoot rest)
      | [] => some (fromRoot [])
    else relative (c :: rest)
  | [] => relative []
where
  /-- The text after a single slash keeps the base's drive letter or else its host. -/
  fromRoot (rest : List Char) : Url :=
    match base with
    | none => fileUrl [] ['/'] rest
    | some base =>
      let first := firstSegment base.path
      if startsWithDrive (ink rest) then fileUrl [] ['/'] rest
      else if isNormalDrive first then fileUrl [] ('/' :: first ++ ['/']) rest
      else fileUrl (base.host.getD []) ['/'] rest
  /-- A text without a slash at its start. -/
  relative (cs : List Char) : Option Url :=
    match base, cs with
    | none, cs => some (fileUrl [] ['/'] cs)
    | some base, [] => some { base with fragment := none }
    | some base, '?' :: _ =>
      let tail := cutTail .file cs
      some { base with query := tail.query, fragment := tail.fragment }
    | some base, '#' :: fragment => some { base with fragment := some (fragmentText fragment) }
    | some base, cs =>
      if startsWithDrive (ink cs) then some (fileUrl [] ['/'] cs)
      else
        let tail := cutTail .file cs
        some { base with
          path := pathFrom .file (dropLast .file base.path) tail.path
          query := tail.query
          fragment := tail.fragment }

/-! ## References -/

/-- The URL that a text without a scheme means in a document with a URL of another kind than
`file`. -/
def relative? (base : Url) (cs : List Char) : Option Url :=
  let kind := SchemeKind.ofScheme base.scheme
  let onPath (before cs : List Char) : Url :=
    let tail := cutTail kind cs
    { base with
      path := pathFrom kind before tail.path
      query := tail.query
      fragment := tail.fragment }
  match cs with
  | [] => some { base with fragment := none }
  | '?' :: _ =>
    let tail := cutTail kind cs
    some { base with query := tail.query, fragment := tail.fragment }
  | '#' :: fragment =>
    some { base with fragment := some (fragmentText fragment) }
  | c :: rest =>
    if c = '/' ∨ c = '\\' then
      let slashes := cs.takeWhile fun c => c == '/' || c == '\\'
      if 2 ≤ slashes.length then
        match Chars.strip ['/', '/'] cs with
        | some after => afterSlashes? base.scheme after
        | none => afterSlashes? base.scheme (cs.drop slashes.length)
      else some (onPath ['/'] rest)
    else
      let directory := dropLast kind base.path
      some (onPath (if directory.isEmpty then ['/'] else directory) cs)

/-- The scheme of a text in lower case, and the text after its colon. -/
def splitScheme? (cs : List Char) : Option (List Char × List Char) := do
  let (scheme, rest) ← Chars.splitOnce ':' cs
  let scheme := ink scheme
  let isSchemeChar (c : Char) : Bool := c.isAlphanum || c == '+' || c == '-' || c == '.'
  if (scheme.head?.any Char.isAlpha) && scheme.all isSchemeChar then
    some (scheme.map Char.toLower, rest)
  else none

/-- The text without control characters and blanks around it. -/
def clean (cs : List Char) : List Char :=
  let isBlank (c : Char) : Bool := c.toNat ≤ 0x20
  ((cs.dropWhile isBlank).reverse.dropWhile isBlank).reverse

/-- The URL that a text with the given scheme means. -/
def ofScheme? (base : Option Url) (scheme rest : List Char) : Option Url :=
  match SchemeKind.ofScheme scheme with
  | .file => file? (base.filter fun b => b.scheme = scheme) rest
  | .special =>
    let rest := ink rest
    let slashes := rest.takeWhile fun c => c == '/' || c == '\\'
    match base.filter fun b => b.scheme = scheme && slashes.length < 2 with
    | some base => relative? base rest
    | none => afterSlashes? scheme (rest.drop slashes.length)
  | .other =>
    let rest := ink rest
    match Chars.strip ['/', '/'] rest with
    | some after => afterSlashes? scheme after
    | none =>
      let tail := cutTail .other rest
      let path :=
        match tail.path with
        | '/' :: cs => pathFrom .other ['/'] cs
        | cs => Percent.encode Percent.isControl cs
      some ⟨scheme, [], none, none, path, tail.query, tail.fragment⟩

/-- The URL that a text means, in a document with the URL `base` if there is one. A base with a flat
path only takes a fragment. -/
def parse? (base : Option Url) (s : String) : Option Url :=
  let cs := clean s.toList
  match splitScheme? cs with
  | some (scheme, rest) => ofScheme? base scheme rest
  | none =>
    match base with
    | none => none
    | some base =>
      match skipIgnored cs with
      | '#' :: fragment => some { base with fragment := some (fragmentText fragment) }
      | cs =>
        if base.isFlat then none
        else if base.scheme = "file".toList then file? (some base) cs
        else relative? base (ink cs)

/-! ## Writing -/

/-- The text of the path. Without an authority before it, a path does not start with two
slashes. -/
def pathText (url : Url) : List Char :=
  if url.host.isNone ∧ ['/', '/'].isPrefixOf url.path then '/' :: '.' :: url.path else url.path

/-- The URL in writing. -/
def text (url : Url) : String :=
  let authority :=
    match url.host with
    | none => []
    | some host =>
      "//".toList ++ (if url.userInfo.isEmpty then [] else url.userInfo ++ ['@']) ++ host ++
        match url.port with
        | some port => ':' :: (toString port).toList
        | none => []
  let query :=
    match url.query with
    | some query => '?' :: query
    | none => []
  let fragment :=
    match url.fragment with
    | some fragment => '#' :: fragment
    | none => []
  String.ofList (url.scheme ++ [':'] ++ authority ++ url.pathText ++ query ++ fragment)

/-! ## Changing and using a URL -/

/-- The URL with another host. The text up to the first colon counts, unless it stands between
brackets. -/
def withHost? (url : Url) (host : String) : Option Url := do
  let cs := host.toList
  let cs ←
    if cs.head? = some '[' ∧ cs.getLast? = some ']' then some cs
    else
      match Chars.splitOnce ':' cs with
      | some ([], _) => none
      | some (front, _) => some front
      | none => some cs
  let host ←
    if (SchemeKind.ofScheme url.scheme).isSpecial then Host.special? cs else Host.other? cs
  return { url with host := some host }

/-- The URL with another port; the default port is not written. -/
def withPort (url : Url) (port : Nat) : Url :=
  { url with port := if some port = defaultPort? url.scheme then none else some port }

/-- The bytes of the path of the file that a URL names. The URL has to have a path with segments and
no host other than `localhost`. A path that ends in a drive letter gets a slash. -/
def filePath? (url : Url) : Option (List UInt8) :=
  let host := url.host.getD []
  if url.path.head? ≠ some '/' ∨ (!host.isEmpty ∧ host ≠ "localhost".toList) then none
  else
    let bytes := Percent.decode url.path
    match bytes.reverse with
    | d :: c :: _ :: _ =>
      if isDriveLetter [Char.ofNat c.toNat, Char.ofNat d.toNat] then
        some (bytes ++ ['/'.toUInt8])
      else some bytes
    | _ => some bytes

end Url

end XsdTypes

import ClassAtlas.Catalog.Basic
import ClassAtlas.Interrupt
import ClassAtlas.Text.Blank

namespace ClassAtlas

/-- Why a path is no root of a source tree. -/
inductive RootError where
  | empty
  | missing (path : Text)
  | notDirectory (path : Text)
  deriving DecidableEq, Repr

/-- The wording of a refused root. -/
def RootError.message : RootError → Text
  | .empty => "invalid analysis root: root must not be empty"
  | .missing path => "invalid analysis root: root directory does not exist: " ++ path
  | .notDirectory path => "invalid analysis root: not a directory: " ++ path

/-- Why there is no catalog. -/
inductive ScanError where
  | root (cause : RootError)
  | interrupted (cause : Interruption)
  deriving DecidableEq, Repr

/-- The wording of a failed scan. -/
def ScanError.message : ScanError → Text
  | .root e => e.message
  | .interrupted i => i.message

/-- How to scan a tree. -/
structure ScanOptions where
  extension : Text := ".java"
  ignored : List Text := [".git", ".idea", "target", "build", "node_modules"]
  cacheSize : Int := 4096

namespace ScanOptions

/-- An extension starts with a dot, unless it is empty. -/
def dotted (extension : Text) : Text :=
  if extension.isEmpty || extension.startsWith "." then extension else Text.dot :: extension

end ScanOptions

namespace TreeScan

/-- The absolute path of a root that exists and is a directory, possibly behind links. -/
def validRoot (d : Disk) (root : Text) : Except RootError Text :=
  if (Blank.trim root).isEmpty then .error .empty
  else
    let path := Path.absolute d.workdir root
    match d.nodeAt true path with
    | .error _ => .error (.missing root)
    | .ok n => if n.isDirectory then .ok path else .error (.notDirectory root)

/-- An entry of the walk: its path and what stands there. -/
structure Visit where
  path : Text
  node : Node

/-- An entry below the root is a directory with an ignored name. -/
def isIgnored (ignored : List Text) (e : Disk.Entry) : Bool :=
  e.2.isDirectory && ignored.contains (e.1.getLast?.getD [])

/-- An entry below the directory `top` is a directory whose entries may not be listed. -/
def isUnlisted (d : Disk) (top : List Text) (e : Disk.Entry) : Bool :=
  e.2.isDirectory && !d.isReadable (top ++ e.1)

/-- How the walk comes to a directory or file: a directory whose entries it could not list it comes to
once more, with the failure. -/
def reported (unlisted : Bool) (v : Visit) : List Visit := if unlisted then [v, v] else [v]

/-- The entries that the walk comes to below the directory `top`. An ignored directory is an entry
without contents, and so is one whose entries may not be listed. -/
def walked (d : Disk) (ignored top : List Text) : List Disk.Entry :=
  if d.isReadable top then
    Disk.prune (fun e => isIgnored ignored e || isUnlisted d top e) none (d.below top)
  else []

/-- The entries that the walk comes to, the root first. A root that is itself a link is one entry
and nothing below it. -/
def visits (d : Disk) (ignored : List Text) (root : Text) : List Visit :=
  match d.resolve false root with
  | .error _ => []
  | .ok top =>
    match d.node? top with
    | some .directory =>
      reported (!d.isReadable top) ⟨root, .directory⟩ ++ (walked d ignored top).flatMap fun e =>
        reported (!isIgnored ignored e && isUnlisted d top e) ⟨Path.join (root :: e.1), e.2⟩
    | some n => [⟨root, n⟩]
    | none => []

/-- What the scan has collected. -/
structure Progress where
  units : UnitMap
  readErrors : List ReadError
  stats : ScanStats
  cache : TextCache

/-- Takes a file with the source extension into account. -/
def index (d : Disk) (root extension path : Text) (p : Progress) : Progress :=
  let stats := { p.stats with scanned := p.stats.scanned + 1 }
  match d.readFile path with
  | .error e =>
    { p with
      readErrors := p.readErrors ++ [⟨path, e⟩]
      stats := { stats with unreadable := stats.unreadable + 1 } }
  | .ok t =>
    let package := Source.package t
    if package.isEmpty then
      { p with stats := { stats with withoutPackage := stats.withoutPackage + 1 } }
    else
      let name := package ++ "." ++ (Path.base path).dropTail extension
      let seen := if p.units.contains name then 1 else 0
      { p with
        units := p.units.add ⟨name, package, path, Module.ofPath root path⟩
        stats := { stats with collisions := stats.collisions + seen }
        cache := p.cache.put path t }

/-- Takes an entry of the walk into account: only files with the extension matter, so that a directory
which comes with a failure changes nothing. -/
def take (d : Disk) (root extension : Text) (v : Visit) (p : Progress) : Progress :=
  if v.node.isDirectory then p
  else if (Path.base v.path).endsWith extension then index d root extension v.path p
  else p

/-- Goes through the entries of the walk, with one check before each of them. -/
def collect (d : Disk) (root extension : Text) :
    List Visit → Budget → Progress → Except Interruption Progress
  | [], _, p => .ok p
  | v :: rest, budget, p =>
    match budget.check with
    | .error i => .error i
    | .ok budget' => collect d root extension rest budget' (take d root extension v p)

/-- The modules: directories directly below the root whose names are not ignored. There are none if the
entries of the root may not be listed. -/
def modules (d : Disk) (ignored : List Text) (root : Text) : List Text :=
  match d.resolve true root with
  | .error _ => []
  | .ok top =>
    ((d.entries top).filter fun e => e.2.isDirectory && !ignored.contains e.1).map Prod.fst

end TreeScan

/-- Scans a source tree into a catalog, and a cache that holds the texts read last. -/
def Catalog.scan (d : Disk) (options : ScanOptions) (budget : Budget) (root : Text) :
    Except ScanError (Catalog × TextCache) :=
  match TreeScan.validRoot d root with
  | .error e => .error (.root e)
  | .ok path =>
    let start : TreeScan.Progress :=
      ⟨UnitMap.empty, [], {}, TextCache.ofSize options.cacheSize⟩
    match TreeScan.collect d path options.extension (TreeScan.visits d options.ignored path) budget start with
    | .error i => .error (.interrupted i)
    | .ok p =>
      .ok (⟨path, options.extension, p.units, TreeScan.modules d options.ignored path, p.readErrors,
        { p.stats with registered := p.units.size }⟩, p.cache)

end ClassAtlas

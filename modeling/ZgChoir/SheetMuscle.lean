import ZgChoir.UndoStack

/-!
# A MUSCLE for sheets

An executable `UndoStackMuscle` whose messages are sheets of paper.  Its
methods do what MUSCLE's do at a path that names one node, and take every path
for one.  Parents are created on demand; a new indexed node goes to the end of
its parent's index or in front of a sibling; what is below a node goes before
the node, and index entries go before what they name.  A method that would
have to make a change that does not apply makes none, and answers with an
error.
-/

namespace ZgChoir

/-- One sheet of a message: its what-code, a number that is the user's, and
the fields. -/
structure Page where
  what : UInt32 := 0
  value : UInt32 := 0
  int64s : List (String × ℕ) := []
  strings : List (String × String) := []
  deriving DecidableEq

/-- A message: a page, or a tree of pages. -/
inductive Sheet where
  | page (page : Page)
  | archive (nodes : List (NodePath × Page × List String))
  deriving DecidableEq

/-- The page of a message; an archive has an empty one in front. -/
def Sheet.front : Sheet → Page
  | .page front => front
  | .archive _ => {}

/-- A sheet with a number on it. -/
def Sheet.number (value : UInt32) : Sheet := .page { value }

/-- The changes, if each applies in its turn. -/
def Outcome.ofValid {P : Type} (t : MessageTree P)
    (changes : List (TreeChange P)) : Outcome t :=
  if h : TreeChange.Valid t changes then
    { status := .noError, changes, valid := h }
  else { status := .badObject, changes := [], valid := trivial }

/-- No changes. -/
def Outcome.unchanged {P : Type} (t : MessageTree P) (status : Status) :
    Outcome t :=
  { status, changes := [], valid := trivial }

namespace LiteralTree

variable {P : Type}

/-- The elements of a multiset in ascending order. -/
def sorted {α : Type} [LinearOrder α] (s : Multiset α) : List α :=
  Quot.liftOn s (List.insertionSort (· ≤ ·)) fun a b hperm =>
    List.Perm.eq_of_pairwise (fun _ _ _ _ => le_antisymm)
      (List.pairwise_insertionSort _ a) (List.pairwise_insertionSort _ b)
      ((List.perm_insertionSort _ a).trans
        (hperm.trans (List.perm_insertionSort _ b).symm))

/-- The paths at `path` and below, every one before those above it. -/
def pathsBelow (t : MessageTree P) (path : NodePath) : List NodePath :=
  ((sorted t.nodes.keys.val).filter (path.isPrefixOf ·)).reverse

/-- The names of the nodes right below `path`. -/
def childNames (t : MessageTree P) (path : NodePath) : List String :=
  (pathsBelow t path).reverse.filterMap fun q =>
    if q.dropLast = path ∧ q ≠ [] then q.getLast? else none

/-- Where a new entry goes in an index. -/
def insertionIndex (index : List String) : Option String → ℕ
  | some before => index.idxOf before
  | none => index.length

/-- The changes that set the payload of a node. -/
def setChanges (t : MessageTree P) (empty : P) (path : NodePath) (payload : P)
    (addToIndex : Bool) (optInsertBefore : Option String) :
    List (TreeChange P) :=
  (t.missingParents path).map (.payloadSet · empty) ++
    .payloadSet path payload ::
    match path.getLast? with
    | some name =>
        if addToIndex && decide (path ∉ t.nodes) then
          [.indexInserted path.dropLast
            (insertionIndex (t.indexOf path.dropLast) optInsertBefore) name]
        else []
    | none => []

/-- The changes that empty an index. -/
def clearIndex (t : MessageTree P) (path : NodePath) : List (TreeChange P) :=
  (t.indexOf path).map (.indexRemoved path 0 ·)

/-- The changes that take a name off the end of an index that begins after
`before` entries. -/
def unlist (path : NodePath) (name : String) :
    ℕ → List String → List (TreeChange P)
  | _, [] => []
  | before, key :: keys =>
      if key = name then
        .indexRemoved path before key :: unlist path name before keys
      else unlist path name (before + 1) keys

/-- The changes that remove a node and everything below it. -/
def removeChanges (t : MessageTree P) (path : NodePath) :
    List (TreeChange P) :=
  (match path.getLast? with
    | some name => unlist path.dropLast name 0 (t.indexOf path.dropLast)
    | none => []) ++
    (pathsBelow t path).flatMap (clearIndex t) ++
    (pathsBelow t path).map .removed

/-- The changes that move an entry of an index in front of another. -/
def moveChanges (t : MessageTree P) (parent : NodePath) (name : String)
    (optBefore : Option String) : List (TreeChange P) :=
  let index := t.indexOf parent
  if name ∈ index then
    [.indexRemoved parent (index.idxOf name) name,
      .indexInserted parent (insertionIndex (index.erase name) optBefore) name]
  else []

end LiteralTree

open LiteralTree

namespace SheetTree

/-- The names that an archived index adds to the index of the node at
`parent`: those of children in the archive that are new, each once. -/
def newEntries (t : MessageTree Sheet) (parent : NodePath)
    (nodes : List (NodePath × Page × List String))
    (node : NodePath × Page × List String) : List String :=
  node.2.2.eraseDups.filter fun name =>
    nodes.any (·.1 == node.1 ++ [name]) && decide (parent ++ [name] ∉ t.nodes)

/-- The changes that restore an archive at `path`: the payloads, and for the
nodes that are new the entries at the ends of their parents' indices. -/
def restoreChanges (t : MessageTree Sheet) (path : NodePath)
    (nodes : List (NodePath × Page × List String)) : List (TreeChange Sheet) :=
  (t.missingParents path).map (.payloadSet · (.number 0)) ++
    nodes.map (fun node => .payloadSet (path ++ node.1) (.page node.2.1)) ++
    nodes.flatMap fun node =>
      let parent := path ++ node.1
      ((newEntries t parent nodes node).zipIdx
        (t.indexOf parent).length).map fun entry =>
          .indexInserted parent entry.2 entry.1

/-- What an archive says of the node at `q`, unless its payload is an archive
itself. -/
def saveNode (t : MessageTree Sheet) (path q : NodePath) :
    Option (NodePath × Page × List String) :=
  match t.lookup q with
  | some ⟨.page page, index⟩ => some (q.drop path.length, page, index)
  | _ => none

/-- An archive of the node at `path` and of everything below it. -/
def save (t : MessageTree Sheet) (path : NodePath) : Status × Sheet :=
  match ((pathsBelow t path).reverse.mapM (saveNode t path)) with
  | some nodes => (.noError, .archive nodes)
  | none => (.badData, .archive [])

end SheetTree

open SheetTree

/-- MUSCLE, for sheets. -/
def sheetMuscle : UndoStackMuscle Sheet where
  messageChecksum s := s.front.value + s.front.what
  stringChecksum name := if name = "a" then 97 else 98
  emptyMessage := .page {}
  canMatchMultipleValues path := path.contains "*"
  segmentsMatch pattern path :=
    pattern.length == path.length &&
      (pattern.zip path).all fun c => c.1 == "*" || c.1 == c.2
  symlinkTarget _ := none
  assembleBatchMessage
    | none, newMsg, _ => newMsg
    | some (.batch msgs), newMsg, prepend =>
        .batch (if prepend then newMsg :: msgs else msgs ++ [newMsg])
    | some msg, newMsg, prepend =>
        .batch (if prepend then [newMsg, msg] else [msg, newMsg])
  getDataNode t path := if path ∈ t.nodes then some path else none
  getMaxKnownChildIDHint _ _ := 0
  setDataNode t path payload flags optInsertBefore :=
    let changes :=
      setChanges t (.page {}) path payload flags.addToIndex optInsertBefore
    if path ∈ t.nodes then
      if flags.dontOverwriteData then .unchanged t .accessDenied
      else .ofValid t changes
    else if flags.dontCreateNode then .unchanged t .accessDenied
    else .ofValid t changes
  removeDataNodes t path filter :=
    match t.lookup path with
    | some node =>
        if filter path node then .ofValid t (removeChanges t path)
        else .unchanged t .noError
    | none => .unchanged t .noError
  moveIndexEntries t path optBefore filter :=
    match t.lookup path, path.getLast? with
    | some node, some name =>
        if filter path node then
          .ofValid t (moveChanges t path.dropLast name optBefore)
        else .unchanged t .noError
    | _, _ => .unchanged t .noError
  restoreNodeTreeFromMessage t msg path :=
    match msg with
    | .archive nodes => .ofValid t (restoreChanges t path nodes)
    | .page _ => .unchanged t .dataNotFound
  saveNodeTreeToMessage := save
  insertIndexEntryAt t path index key :=
    .ofValid t [.indexInserted path index key]
  removeIndexEntryAt t path index :=
    match (t.indexOf path)[index]? with
    | some key => .ofValid t [.indexRemoved path index key]
    | none => .unchanged t .badArgument
  what s := s.front.what
  setWhat s what := .page { s.front with what }
  findInt64 s fieldName := s.front.int64s.lookup fieldName
  addInt64 s fieldName value :=
    .page { s.front with int64s := s.front.int64s ++ [(fieldName, value)] }
  addString s fieldName value :=
    .page { s.front with strings := s.front.strings ++ [(fieldName, value)] }
  removeName s fieldName :=
    .page { s.front with
      int64s := s.front.int64s.filter (·.1 ≠ fieldName)
      strings := s.front.strings.filter (·.1 ≠ fieldName) }
  archiveOf
    | .archive _ archive => archive
    | _ => .page {}
  payloadNumBytes _ := 8
  getChildIterator := childNames
  removeChild t path name :=
    if path ++ [name] ∈ t.nodes then
      .ofValid t (removeChanges t (path ++ [name]))
    else .unchanged t .dataNotFound
  setData t path payload := .ofValid t [.payloadSet path payload]

/-- A session with nothing in its tree but its own node. -/
def blankSession : MessageTree Sheet where
  nodes := (∅ : Finmap fun _ : NodePath => DataNode Sheet).insert []
    { payload := .page {}, index := [] }
  closed := by
    intro p hp hne
    rw [Finmap.mem_insert] at hp
    exact absurd (hp.resolve_right Finmap.notMem_empty) hne

/-- One database, mounted under the name "db". -/
def sheetMount : Mount :=
  { roots := [["db"]], dbIndex := 0, root := ["db"]
    mounted := List.getElem?_cons_zero }

/-- An undo-stack database that has just been constructed. -/
def blankDatabase : MessageTreeDatabaseObject Sheet :=
  { tree := blankSession, checksum := 0, assembledJuniorMessage := none
    recordsUndo := true, assembledJuniorUndoMessage := none }

/-- The state of the database when its peer has been attached. -/
def attachedState : UndoStackState Sheet :=
  .fresh
    (undoStackCallbacks sheetMuscle sheetMount false
      { currentDatabaseStateID := 0
        updateLogContainsUpdate := fun _ => false
        getUpdatePayload := fun _ => none })
    blankDatabase 0 1000

/-- The only peer, and so the senior one. -/
def sheetMaster : Master :=
  { localPeerID := ⟨0, 1⟩, seniorPeerID := ⟨0, 1⟩, iAmFullyAttached := true }

/-- A request of that peer. -/
def sheetRequest (msg : DatabaseUpdateRequest (UndoStackMessage Sheet)) :
    SeniorRequest Sheet :=
  { fromPeerID := ⟨0, 1⟩, msg
    time := { startNetworkTimeMicros := 0, elapsedMicros := 0 } }

/-- A request for an update. -/
def updateRequest (userMsg : UndoStackMessage Sheet) : SeniorRequest Sheet :=
  sheetRequest (.updateSeniorDatabase (some userMsg))

/-- A client's request to put a number on the sheet at a path. -/
def writeRequest (key : UndoKey) (path : NodePath) (value : UInt32)
    (flags : TreeGatewayFlags) : SeniorRequest Sheet :=
  updateRequest
    (.tree key (.updateNodeValue path (some (.number value)) flags "" ""))

end ZgChoir

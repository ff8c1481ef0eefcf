import Mathlib
import AlphaPipeline.CRuntime
import AlphaPipeline.Edge.Sha256
import AlphaPipeline.Library.Fallible

/-!
# The schema lock

`capture_schema_lock.py` writes the checksums of the schema's sources and one checksum over them
all, `verify_schema_lock.py` checks a lock against a source tree, and `apply_python_schema.py`
applies the SQL of a tree that was verified. The checksum over all sources is an identity: whatever
lock and tree are verified under it, the SQL is the same, unless checksums collide.
-/
namespace AlphaPipeline.SchemaLock

open Sha256 (Byte)
open Fallible

/-! ### The tools -/

/-- What a Python program raises. -/
inductive Failure where
  | assertion (message : Text)
  | file (path : Text)
  | process
  | value (message : String)
  | type
  deriving DecidableEq

/-- A source tree: the bytes of its files, and the revision that `git` prints, if it does. -/
structure Tree where
  files : Text → Option (List Byte)
  revision : Option Text

/-- `read_bytes`. -/
def Tree.readBytes (tree : Tree) (path : Text) : Except Failure (List Byte) :=
  if '\x00' ∈ path then .error (.value "embedded null byte")
  else
    match tree.files path with
    | none => .error (.file path)
    | some bytes => .ok bytes

/-- `git rev-parse HEAD`. -/
def Tree.head (tree : Tree) : Except Failure Text :=
  match tree.revision with
  | none => .error .process
  | some revision => .ok revision

/-- `str.encode`. -/
def encode (text : Text) : List Byte :=
  text.flatMap fun c => (String.utf8EncodeChar c).map UInt8.toBitVec

/-- `hashlib.sha256(..).hexdigest()`. -/
def hexdigest (bytes : List Byte) : Text := Sha256.sha256Hex bytes

/-- An item of `sources`. -/
structure Item where
  path : Text
  sha256 : Text
  deriving DecidableEq

/-- The fields of a lock, without its notes. -/
structure Lock where
  schemaIdentity : Text
  identityKind : Text
  pythonCommit : Text
  versionTable : Option Text
  sources : List Item

/-- `SCHEMA_SOURCES`. -/
def schemaSources : List Text :=
  ["k8s/base/migration-job.yaml".toList, "scripts/db/init_db.py".toList,
    "scripts/db/migrate_ohlcv_minute.py".toList, "scripts/db/migrate_to_v2_instruments.py".toList]

def identityKind : Text := "content-addressed-bootstrap-bundle".toList

def Item.line (item : Item) : Text := item.path ++ '\x00' :: (item.sha256 ++ ['\n'])

/-- The `payload` of both tools. -/
def payload (sources : List Item) : Text := sources.flatMap Item.line

/-- `bundle_sha256`, under the name of the identity. -/
def identity (sources : List Item) : Text :=
  "bootstrap-sha256:".toList ++ hexdigest (encode (payload sources))

/-- `capture`. -/
def capture (tree : Tree) : Except Failure Lock := do
  let sources ← schemaSources.mapM fun path => do
    let bytes ← tree.readBytes path
    pure (⟨path, hexdigest bytes⟩ : Item)
  let revision ← tree.head
  pure ⟨identity sources, identityKind, revision, none, sources⟩

/-- `assert`, with its message. -/
def check (holds : Bool) (message : Text) : Except Failure Unit :=
  raiseIf (!holds) (.assertion message)

/-- `verify`. -/
def verify (lock : Lock) (tree : Tree) (checkRevision : Bool) : Except Failure Unit := do
  check (lock.sources = lock.sources.insertionSort fun a b => a.path ≤ b.path) []
  check (lock.identityKind = identityKind) []
  check (lock.versionTable = none) []
  lock.sources.forM fun item => do
    let bytes ← tree.readBytes item.path
    check (hexdigest bytes = item.sha256) item.path
  check (lock.schemaIdentity = identity lock.sources) []
  if checkRevision then do
    let revision ← tree.head
    check (revision = lock.pythonCommit) []
  else pure ()

/-- What `ast.literal_eval` makes of an expression: a text, something with elements, of which a list
is told apart, or a value without elements. -/
inductive Literal where
  | str (text : Text)
  | items (isList : Bool) (elements : List Literal)
  | scalar

def Literal.text? : Literal → Option Text
  | str text => some text
  | _ => none

/-- The operator `in`, for a text. -/
def Literal.contains (needle : Text) : Literal → Except Failure Bool
  | str text => .ok (needle <:+: text)
  | items _ elements => .ok (elements.any fun element => element.text? = some needle)
  | scalar => .error .type

/-- The elements that a star in a list display takes. -/
def Literal.elements : Literal → Except Failure (List Literal)
  | str text => .ok (text.map fun c => str [c])
  | items _ elements => .ok elements
  | scalar => .error .type

/-- A module-level assignment to one name, with its value if that is a literal. -/
structure Assignment where
  name : String
  annotated : Bool
  value : Option Literal

/-- `ast.parse`: the assignments of a source, if it is the source of a module. -/
abbrev Parser := List Byte → Except Failure (List Assignment)

/-- The literal that is assigned, of the assignments that were looked for. -/
def onlyLiteral (name : String) : List Assignment → Except Failure Literal
  | [assignment] =>
    match assignment.value with
    | some literal => .ok literal
    | none => .error (.value (name ++ " must contain literals only"))
  | _ => .error (.value ("expected exactly one " ++ name ++ " assignment"))

/-- `extract_create_tables`. -/
def extractCreateTables (parse : Parser) (source : List Byte) : Except Failure (List Text) := do
  let body ← parse source
  let literal ← onlyLiteral "CREATE_TABLES"
    (body.filter fun node => node.annotated && node.name = "CREATE_TABLES")
  match literal with
  | .items true elements =>
    match elements.mapM Literal.text? with
    | some statements => pure statements
    | none => .error (.value "CREATE_TABLES must be a list of SQL strings")
  | _ => .error (.value "CREATE_TABLES must be a list of SQL strings")

/-- `extract_literal`. -/
def extractLiteral (parse : Parser) (source : List Byte) (name : String) :
    Except Failure Literal := do
  let body ← parse source
  onlyLiteral name (body.filter fun node => node.name = name)

/-- The checks of `extract_locked_migrations` on the columns that the v2 migration drops. -/
def checkDrops (drops : Literal) : Except Failure Unit := do
  let raw ← drops.contains "raw_code".toList
  let dropped ← if raw then pure true else drops.contains "ticker".toList
  if dropped then .error (.value "v2 migration must preserve the ticker column")
  else
    match drops with
    | .items true elements =>
      if elements.all fun element => element.text?.isSome then .ok ()
      else .error (.value "_INSTRUMENTS_DROP_COLUMNS must be a list of strings")
    | _ => .error (.value "_INSTRUMENTS_DROP_COLUMNS must be a list of strings")

/-- Its check on the table of the v2 migration. -/
def checkUniverse : Literal → Except Failure Unit
  | .str ddl =>
    if "CREATE TABLE IF NOT EXISTS trading_universe".toList <:+: ddl then .ok ()
    else .error (.value "v2 migration lacks literal trading_universe DDL")
  | _ => .error (.value "v2 migration lacks literal trading_universe DDL")

/-- `extract_locked_migrations`, by the sources of the two migrations. -/
def extractLockedMigrations (parse : Parser) (v2 minute : List Byte) :
    Except Failure (List Text) := do
  let drops ← extractLiteral parse v2 "_INSTRUMENTS_DROP_COLUMNS"
  let ddl ← extractLiteral parse v2 "_TRADING_UNIVERSE_DDL"
  checkDrops drops
  checkUniverse ddl
  let table ← extractLiteral parse minute "CREATE_TABLE_SQL"
  let partitions ← extractLiteral parse minute "PARTITION_SQLS"
  let indexes ← extractLiteral parse minute "INDEX_SQLS"
  let partitions ← partitions.elements
  let indexes ← indexes.elements
  match (table :: (partitions ++ indexes)).mapM Literal.text? with
  | some statements => pure statements
  | none => .error (.value "minute migration SQL must contain strings only")

/-- The script that `apply` gives to `psql`, without the assertions on the catalog that end it. -/
def apply (parse : Parser) (lock : Lock) (tree : Tree) : Except Failure Text := do
  verify lock tree true
  let init ← tree.readBytes "scripts/db/init_db.py".toList
  let statements ← extractCreateTables parse init
  let v2 ← tree.readBytes "scripts/db/migrate_to_v2_instruments.py".toList
  let minute ← tree.readBytes "scripts/db/migrate_ohlcv_minute.py".toList
  let migrations ← extractLockedMigrations parse v2 minute
  pure ("CREATE EXTENSION IF NOT EXISTS pgcrypto;\n".toList ++
    ['\n'].intercalate (statements ++ migrations))

/-! ### What a checksum is of -/

@[simp] theorem check_eq_ok {holds : Bool} {message : Text} {u : Unit} :
    check holds message = .ok u ↔ holds = true := by
  rw [check, raiseIf_eq_ok, Bool.not_eq_false']

theorem readBytes_eq_ok {tree : Tree} {path : Text} {bytes : List Byte} :
    tree.readBytes path = .ok bytes ↔ '\x00' ∉ path ∧ tree.files path = some bytes := by
  rw [Tree.readBytes]
  split
  next null => exact ⟨nofun, fun ⟨free, _⟩ => absurd null free⟩
  next free =>
    split
    next missing => exact ⟨nofun, fun ⟨_, found⟩ => by rw [missing] at found; cases found⟩
    next found =>
      constructor
      · rintro ⟨⟩
        exact ⟨free, found⟩
      · rintro ⟨_, same⟩
        rw [found] at same
        exact congrArg Except.ok (Option.some.inj same)

theorem length_hexdigest (bytes : List Byte) : (hexdigest bytes).length = 64 := by
  have word (w : BitVec 32) : (Sha256.formatWord w).length = 8 := by
    have short : (Nat.toDigits 16 w.toNat).length ≤ 8 :=
      (Nat.length_toDigits_le_iff (by decide) (by decide)).mpr w.isLt
    rw [Sha256.formatWord, List.length_append, List.length_replicate]
    omega
  rw [hexdigest, Sha256.sha256Hex, List.length_flatMap, funext word, List.map_const',
    List.sum_replicate, Vector.length_toList]
  rfl

theorem encode_injective : Function.Injective encode := by
  intro text other same
  have bytes (text : Text) :
      encode text = (text.flatMap String.utf8EncodeChar).map UInt8.toBitVec :=
    List.map_flatMap.symm
  rw [bytes, bytes] at same
  have units := List.map_injective_iff.mpr (fun _ _ => UInt8.toBitVec_inj.mp) same
  apply String.ofList_inj.mp
  rw [← String.toByteArray_inj, String.toByteArray_ofList, String.toByteArray_ofList]
  exact congrArg List.toByteArray units

/-- A path that can be opened, and the checksum of something. -/
structure Item.WellFormed (item : Item) : Prop where
  path : '\x00' ∉ item.path
  sha256 : item.sha256.length = 64

private theorem split_first {c : Char} {front front' back back' : Text} (free : c ∉ front)
    (free' : c ∉ front') (same : front ++ c :: back = front' ++ c :: back') :
    front = front' ∧ back = back' := by
  induction front generalizing front' with
  | nil =>
    cases front' with
    | nil => exact ⟨rfl, (List.cons.inj same).2⟩
    | cons d front' => exact absurd ((List.cons.inj same).1 ▸ List.mem_cons_self) free'
  | cons d front ih =>
    cases front' with
    | nil => exact absurd ((List.cons.inj same).1 ▸ List.mem_cons_self) free
    | cons e front' =>
      obtain ⟨rfl, rest⟩ := List.cons.inj same
      obtain ⟨rfl, rfl⟩ := ih (List.not_mem_of_not_mem_cons free)
        (List.not_mem_of_not_mem_cons free') rest
      exact ⟨rfl, rfl⟩

/-- A line can be told from what follows it: the first null byte ends the path, and all checksums
have the same length. -/
theorem line_unique {item other : Item} {rest rest' : Text} (formed : item.WellFormed)
    (formed' : other.WellFormed) (same : item.line ++ rest = other.line ++ rest') :
    item = other ∧ rest = rest' := by
  simp only [Item.line, List.append_assoc, List.cons_append] at same
  obtain ⟨path, tail⟩ := split_first formed.path formed'.path same
  obtain ⟨sha256, tail⟩ := List.append_inj tail (formed.sha256.trans formed'.sha256.symm)
  refine ⟨?_, (List.cons.inj tail).2⟩
  cases item
  cases other
  exact congrArg₂ Item.mk path sha256

theorem payload_unique {sources others : List Item} (formed : ∀ item ∈ sources, item.WellFormed)
    (formed' : ∀ item ∈ others, item.WellFormed) (same : payload sources = payload others) :
    sources = others := by
  -- on the first list; a line is not empty, so both end together
  induction sources generalizing others with
  | nil =>
    cases others with
    | nil => rfl
    | cons other others => simp [payload, Item.line] at same
  | cons item sources ih =>
    cases others with
    | nil => simp [payload, Item.line] at same
    | cons other others =>
      rw [List.forall_mem_cons] at formed formed'
      obtain ⟨rfl, rest⟩ := line_unique formed.1 formed'.1 same
      rw [ih formed.2 formed'.2 rest]

/-! ### What a verified lock says -/

/-- What holds of a lock and a tree that were verified. -/
structure Verified (lock : Lock) (tree : Tree) : Prop where
  items : ∀ item ∈ lock.sources,
    ∃ bytes, tree.readBytes item.path = .ok bytes ∧ hexdigest bytes = item.sha256
  identity : lock.schemaIdentity = identity lock.sources

theorem verify_eq_ok {lock : Lock} {tree : Tree} : verify lock tree true = .ok () ↔
    lock.sources = lock.sources.insertionSort (fun a b => a.path ≤ b.path) ∧
      lock.identityKind = identityKind ∧ lock.versionTable = none ∧
      tree.head = .ok lock.pythonCommit ∧ Verified lock tree := by
  simp only [verify, if_true, seq_eq_ok, forM_ok_iff]
  simp only [bind_eq_ok, check_eq_ok, decide_eq_true_eq]
  constructor
  · rintro ⟨sorted, kind, table, items, identity, revision, head, rfl⟩
    exact ⟨sorted, kind, table, head, items, identity⟩
  · rintro ⟨sorted, kind, table, head, items, identity⟩
    exact ⟨sorted, kind, table, items, identity, _, head, rfl⟩

-- a lock need not list the files that are applied: one without sources passes for every tree
example (tree : Tree) (commit : Text) (head : tree.head = .ok commit) :
    verify ⟨identity [], identityKind, commit, none, []⟩ tree true = .ok () :=
  verify_eq_ok.mpr ⟨rfl, rfl, rfl, head, nofun, rfl⟩

theorem Verified.wellFormed {lock : Lock} {tree : Tree} (verified : Verified lock tree) :
    ∀ item ∈ lock.sources, item.WellFormed := by
  intro item member
  obtain ⟨bytes, read, digest⟩ := verified.items item member
  exact ⟨(readBytes_eq_ok.mp read).1, digest ▸ length_hexdigest bytes⟩

/-- The byte strings whose checksums a verification computes. -/
def hashed (lock : Lock) (tree : Tree) : List (List Byte) :=
  encode (payload lock.sources) :: lock.sources.filterMap fun item => tree.files item.path

/-- Two different ones among these have the same checksum. -/
def Collides (inputs : List (List Byte)) : Prop :=
  ∃ a ∈ inputs, ∃ b ∈ inputs, a ≠ b ∧ hexdigest a = hexdigest b

/-- Under one identity there is one list of sources, and one content for each of them. -/
theorem Verified.pins {lock lock' : Lock} {tree tree' : Tree} (verified : Verified lock tree)
    (verified' : Verified lock' tree') (same : lock'.schemaIdentity = lock.schemaIdentity)
    (distinct : ¬ Collides (hashed lock tree ++ hashed lock' tree')) :
    lock'.sources = lock.sources ∧
      ∀ item ∈ lock.sources, tree'.readBytes item.path = tree.readBytes item.path := by
  have equal {a b : List Byte} (here : a ∈ hashed lock tree) (there : b ∈ hashed lock' tree')
      (digests : hexdigest a = hexdigest b) : a = b := by
    by_contra differ
    exact distinct ⟨a, List.mem_append_left _ here, b, List.mem_append_right _ there, differ,
      digests⟩
  have sources : lock'.sources = lock.sources := by
    rw [verified.identity, verified'.identity] at same
    have payloads := equal List.mem_cons_self List.mem_cons_self (List.append_cancel_left same).symm
    exact (payload_unique verified.wellFormed verified'.wellFormed
      (encode_injective payloads)).symm
  refine ⟨sources, fun item member => ?_⟩
  obtain ⟨bytes, read, digest⟩ := verified.items item member
  obtain ⟨bytes', read', digest'⟩ := verified'.items item (sources ▸ member)
  have here : bytes ∈ hashed lock tree := List.mem_cons_of_mem _
    (List.mem_filterMap.mpr ⟨item, member, (readBytes_eq_ok.mp read).2⟩)
  have there : bytes' ∈ hashed lock' tree' := List.mem_cons_of_mem _
    (List.mem_filterMap.mpr ⟨item, sources ▸ member, (readBytes_eq_ok.mp read').2⟩)
  rw [read, read', equal here there (digest.trans digest'.symm)]

/-! ### Capture, verify, apply -/

/-- The lock that is captured of a tree has its checksums. -/
theorem capture_sources {tree : Tree} {lock : Lock} (captured : capture tree = .ok lock) :
    lock.sources.map Item.path = schemaSources ∧
      lock.identityKind = identityKind ∧ lock.versionTable = none ∧
      tree.head = .ok lock.pythonCommit ∧ Verified lock tree := by
  simp only [capture, bind_eq_ok, pure_eq_ok] at captured
  obtain ⟨sources, read, revision, head, rfl⟩ := captured
  have pairs := mapM_ok_iff.mp read
  simp only [bind_eq_ok, pure_eq_ok] at pairs
  refine ⟨?_, rfl, rfl, head, ?_, rfl⟩
  · have paths : List.Forall₂ (· = ·) schemaSources (sources.map Item.path) := by
      rw [List.forall₂_map_right_iff]
      refine pairs.imp ?_
      rintro path item ⟨_, _, rfl⟩
      rfl
    rw [List.forall₂_eq_eq_eq] at paths
    exact paths.symm
  · intro item member
    obtain ⟨path, _, made⟩ := mapM_ok_result read item member
    simp only [bind_eq_ok, pure_eq_ok] at made
    obtain ⟨bytes, opened, rfl⟩ := made
    exact ⟨bytes, opened, rfl⟩

theorem verify_captured {tree : Tree} {lock : Lock} (captured : capture tree = .ok lock) :
    verify lock tree true = .ok () := by
  obtain ⟨paths, kind, table, head, verified⟩ := capture_sources captured
  refine verify_eq_ok.mpr ⟨?_, kind, table, head, verified⟩
  -- the sources are listed in the order of their paths
  have sorted : lock.sources.Pairwise fun a b => a.path ≤ b.path := by
    have order : schemaSources.Pairwise (· ≤ ·) := by decide
    rw [← paths, List.pairwise_map] at order
    exact order
  exact sorted.insertionSort_eq.symm

/-- The files that `apply` reads after it has verified the lock. -/
theorem apply_eq_ok {parse : Parser} {lock : Lock} {tree : Tree} {sql : Text} :
    apply parse lock tree = .ok sql ↔
      verify lock tree true = .ok () ∧ ∃ init statements v2 minute migrations,
        tree.readBytes "scripts/db/init_db.py".toList = .ok init ∧
        extractCreateTables parse init = .ok statements ∧
        tree.readBytes "scripts/db/migrate_to_v2_instruments.py".toList = .ok v2 ∧
        tree.readBytes "scripts/db/migrate_ohlcv_minute.py".toList = .ok minute ∧
        extractLockedMigrations parse v2 minute = .ok migrations ∧
        "CREATE EXTENSION IF NOT EXISTS pgcrypto;\n".toList ++
          ['\n'].intercalate (statements ++ migrations) = sql := by
  rw [apply, seq_eq_ok]
  simp only [bind_eq_ok, pure_eq_ok]
  constructor
  · rintro ⟨verified, init, read, statements, created, v2, read', minute, read'', migrations, rest⟩
    exact ⟨verified, init, statements, v2, minute, migrations, read, created, read', read'', rest⟩
  · rintro ⟨verified, init, statements, v2, minute, migrations, read, created, read', read'', rest⟩
    exact ⟨verified, init, read, statements, created, v2, read', minute, read'', migrations, rest⟩

/-- A lock that is captured of a tree is verified against it. Whatever lock has its identity, and
whatever tree that lock is applied for: if `apply` comes to a script, it is the script of the
captured tree, or two of the byte strings that were hashed have the same checksum. -/
theorem identity_pins_script {tree : Tree} {lock : Lock} (captured : capture tree = .ok lock) :
    verify lock tree true = .ok () ∧
      ∀ parse lock' tree' sql, lock'.schemaIdentity = lock.schemaIdentity →
        apply parse lock' tree' = .ok sql →
        apply parse lock tree = .ok sql ∨ Collides (hashed lock tree ++ hashed lock' tree') := by
  refine ⟨verify_captured captured, fun parse lock' tree' sql same applied => ?_⟩
  rw [or_iff_not_imp_right]
  intro distinct
  obtain ⟨paths, _, _, _, verified⟩ := capture_sources captured
  obtain ⟨passed, init, statements, v2, minute, migrations, read, created, read', read'', rest⟩ :=
    apply_eq_ok.mp applied
  obtain ⟨_, equal⟩ := verified.pins (verify_eq_ok.mp passed).2.2.2.2 same distinct
  -- every file that is read is one of the sources
  have content : ∀ path ∈ schemaSources, tree'.readBytes path = tree.readBytes path := by
    rw [← paths]
    exact List.forall_mem_map.mpr equal
  rw [content _ (by decide)] at read read' read''
  exact apply_eq_ok.mpr ⟨verify_captured captured, init, statements, v2, minute, migrations, read,
    created, read', read'', rest⟩

/-- A tree with a word for each of the files that are applied. -/
def wordTree (revision : String) (others : Option (List Byte)) : Tree where
  files path :=
    if path = "k8s/base/migration-job.yaml".toList then some (encode "job".toList)
    else if path = "scripts/db/init_db.py".toList then some (encode "init".toList)
    else if path = "scripts/db/migrate_ohlcv_minute.py".toList then some (encode "minute".toList)
    else if path = "scripts/db/migrate_to_v2_instruments.py".toList then some (encode "v2".toList)
    else others
  revision := some revision.toList

/-- What the words stand for. -/
def wordParser : Parser := fun source =>
  if source = encode "init".toList then
    .ok [⟨"CREATE_TABLES", true, some (.items true [.str "CREATE TABLE accounts ();".toList])⟩]
  else if source = encode "v2".toList then
    .ok [⟨"_INSTRUMENTS_DROP_COLUMNS", true, some (.items true [.str "market_id".toList])⟩,
      ⟨"_TRADING_UNIVERSE_DDL", false,
        some (.str "CREATE TABLE IF NOT EXISTS trading_universe ();".toList)⟩]
  else if source = encode "minute".toList then
    .ok [⟨"CREATE_TABLE_SQL", false, some (.str "CREATE TABLE ohlcv_minute ();".toList)⟩,
      ⟨"PARTITION_SQLS", false, some (.items true [])⟩,
      ⟨"INDEX_SQLS", false, some (.items true [.str "CREATE INDEX ON ohlcv_minute ();".toList])⟩]
  else .error .type

/-- Two revisions that differ outside the sources: a script is applied for the later one, under a
lock of its own. -/
theorem identity_pins_words :
    ∃ lock lock' sql,
      capture (wordTree "3642cdc" none) = .ok lock ∧
      capture (wordTree "51eee1d" (some [])) = .ok lock' ∧
      lock'.pythonCommit ≠ lock.pythonCommit ∧ lock'.schemaIdentity = lock.schemaIdentity ∧
      apply wordParser lock' (wordTree "51eee1d" (some [])) = .ok sql ∧
      verify lock (wordTree "3642cdc" none) true = .ok () ∧
      (apply wordParser lock (wordTree "3642cdc" none) = .ok sql ∨
        Collides (hashed lock (wordTree "3642cdc" none) ++
          hashed lock' (wordTree "51eee1d" (some [])))) := by
  have captured : capture (wordTree "3642cdc" none) = .ok _ := rfl
  have captured' : capture (wordTree "51eee1d" (some [])) = .ok _ := rfl
  have applied : apply wordParser _ (wordTree "51eee1d" (some [])) = .ok _ :=
    apply_eq_ok.mpr ⟨verify_captured captured', _, _, _, _, _, rfl, rfl, rfl, rfl, rfl, rfl⟩
  obtain ⟨verified, pinned⟩ := identity_pins_script captured
  exact ⟨_, _, _, captured, captured', by decide, rfl, applied, verified,
    pinned wordParser _ _ _ rfl applied⟩

end AlphaPipeline.SchemaLock

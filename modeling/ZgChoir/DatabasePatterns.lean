import ZgChoir.DatabasePaths

/-!
# Paths with wildcards

A path whose clauses are patterns names all the nodes whose paths match it
clause by clause.  The session cuts such a path at the depth of each mount path
and keeps the databases whose mount path matches what is cut off; the rest is
what the database is told.

For every node, one of the databases is told a path that matches the node just
if the path that was asked for does, and the node is in one of the databases
(`getDatabasesForNodePath_exact`).  This is so of paths that are relative to
the session.  The host and session clauses of an absolute path are dropped
unseen, so that a path of another session is taken for one of this session; and
it takes mount paths that match nothing but themselves.
-/

namespace ZgChoir.DatabasePaths

/-- The session's databases, each told to remove nodes: the path that its
`RemoveDataNodes` is called with. -/
def requestDeleteNodes (u : PathFunctions)
    (symlinkTarget : PathText → Option PathText) (databases : Databases)
    (path : PathText) (flags : TreeGatewayFlags) : List PathText :=
  (getDatabasesForNodePath u databases path).filterMap fun told =>
    (databases[told.1]?.join).map fun db =>
      databaseSubpathToSessionRelativePath u symlinkTarget db told.2 flags

/-- A path matches a node, clause by clause. -/
def Matches (u : PathFunctions) (pattern node : List PathText) : Prop :=
  List.Forall₂ (fun p c => u.matchesClause p c = true) pattern node

instance (u : PathFunctions) (pattern node : List PathText) :
    Decidable (Matches u pattern node) :=
  inferInstanceAs (Decidable (List.Forall₂ _ pattern node))

/-- A clause that matches nothing but itself. -/
def IsLiteral (u : PathFunctions) (clause : PathText) : Prop :=
  ∀ c, u.matchesClause clause c = true ↔ c = clause

section

variable {u : PathFunctions} {mount path : SlashPath}
  {pattern pattern' node node' : List PathText}

theorem matches_append (h : Matches u pattern node)
    (h' : Matches u pattern' node') :
    Matches u (pattern ++ pattern') (node ++ node') :=
  List.rel_append h h'

/-- Where a pattern begins with literal clauses, so does what it matches. -/
theorem matches_literal_append (hliteral : ∀ c ∈ pattern, IsLiteral u c) :
    Matches u (pattern ++ pattern') node ↔
      ∃ rest, node = pattern ++ rest ∧ Matches u pattern' rest := by
  induction pattern generalizing node with
  | nil => simp
  | cons first others ih =>
      obtain ⟨hfirst, hothers⟩ := List.forall_mem_cons.mp hliteral
      constructor
      · intro h
        obtain ⟨c, others', hc, hrest, rfl⟩ := List.forall₂_cons_left_iff.mp h
        obtain ⟨rest, rfl, hmatch⟩ := (ih hothers).mp hrest
        rw [(hfirst c).mp hc]
        exact ⟨rest, rfl, hmatch⟩
      · rintro ⟨rest, rfl, hmatch⟩
        exact .cons ((hfirst first).mpr rfl)
          ((ih hothers).mpr ⟨rest, rfl, hmatch⟩)

/-- Literal clauses match themselves. -/
theorem matches_literal (hliteral : ∀ c ∈ pattern, IsLiteral u c) :
    Matches u pattern node ↔ node = pattern := by
  have happend : Matches u (pattern ++ []) node ↔
      ∃ rest, node = pattern ++ rest ∧ Matches u [] rest :=
    matches_literal_append hliteral
  rw [List.append_nil] at happend
  rw [happend]
  constructor
  · rintro ⟨rest, rfl, hnone⟩
    rw [List.forall₂_nil_left_iff.mp hnone, List.append_nil]
  · rintro rfl
    exact ⟨[], (List.append_nil _).symm, .nil⟩

/-- A simple pattern without special characters is literal. -/
theorem isLiteral_simple {clause : PathText}
    (h : ∀ a ∈ clause, a ≠ '*' ∧ a ≠ '?' ∧ a ≠ '\\') :
    IsLiteral simpleFunctions clause := by
  change ∀ c, matchesSimple clause c = true ↔ c = clause
  induction clause with
  | nil =>
      intro c
      rw [matchesSimple, List.isEmpty_iff]
  | cons first others ih =>
      obtain ⟨⟨hstar, hquestion, hescape⟩, hothers⟩ :=
        List.forall_mem_cons.mp h
      intro c
      cases c with
      | nil => simp [matchesSimple, hescape]
      | cons a rest =>
          simp [matchesSimple, hescape, ih hothers rest]

/-! ## What a database is told -/

/-- The path put below a mount path. -/
def below (mount path : SlashPath) : SlashPath where
  clauses := mount.clauses ++ path.clauses
  trailing := path.trailing
  segments c hc := by
    obtain hmount | hpath := List.mem_append.mp hc
    · exact mount.segments c hmount
    · exact path.segments c hpath
  trailing_clauses h :=
    List.append_ne_nil_of_right_ne_nil _ (path.trailing_clauses h)

theorem text_eq_remaining :
    path.text = remaining path.clauses path.trailing := by
  rw [SlashPath.text, remaining]
  split
  · next hempty =>
      have hnone : path.trailing ≠ true := fun h =>
        path.trailing_clauses h hempty
      rw [if_neg hnone, hempty, Segments.text_nil]
  · rfl

/-- A relative path is expanded to one with the clauses of both. -/
theorem segmentsOf_databaseSubpath (hu : u.Documented)
    {symlinkTarget : PathText → Option PathText} {flags : TreeGatewayFlags}
    (hflags : flags.traverseSymlink = false) :
    Segments.segmentsOf '/' (databaseSubpathToSessionRelativePath u
      symlinkTarget (mountedAt u mount) path.text flags) =
      mount.clauses ++ path.clauses := by
  have hclauses : (below mount path).clauses =
      mount.clauses ++ path.clauses := rfl
  have hbelow : databaseSubpathToSessionRelativePath u symlinkTarget
      (mountedAt u mount) (remaining path.clauses path.trailing) flags =
      (below mount path).text :=
    databaseSubpath_of_remaining hu hflags hclauses
  rw [text_eq_remaining, hbelow]
  exact Segments.segmentsOf_text (below mount path).segments

variable (mount path) in
/-- **A pattern** is cut at the depth of the mount path. -/
theorem getDatabaseSubpath_of_pattern (hu : u.Documented)
    (hwild : u.canWildcardStringMatchMultipleValues path.text = true)
    {found : ℕ × PathText} :
    getDatabaseSubpath u (mountedAt u mount) path.text = some found ↔
      Matches u (path.clauses.take mount.clauses.length) mount.clauses ∧
        found = (path.clauses.length - mount.clauses.length,
          (path.drop mount.clauses.length).text) := by
  have hdepth := hu.getPathDepth path
  have hclause : (u.getPathClause mount.clauses.length path.text).getD [] =
      (path.drop mount.clauses.length).text := by
    rw [hu.getPathClause, SlashPath.text, Segments.afterSep_text path.segments,
      SlashPath.text_drop]
  rw [getDatabaseSubpath, dif_neg head?_text_ne, if_pos hwild]
  simp only [rootNodeDepth_mountedAt hu, hdepth, hclause]
  by_cases hshort : path.clauses.length < mount.clauses.length
  · rw [if_pos hshort]
    refine iff_of_false (Option.some_ne_none _).symm ?_
    rintro ⟨hmatch, -⟩
    have hlen := hmatch.length_eq
    rw [List.length_take] at hlen
    omega
  · have hmatches : u.matchesSegments path.text mount.clauses.length
        (mountedAt u mount).rootNodePathWithoutSlash = true ↔
        Matches u (path.clauses.take mount.clauses.length) mount.clauses := by
      rw [rootNodePathWithoutSlash_mountedAt]
      exact hu.matchesSegments path mount.withoutSlash mount.clauses.length
        (not_lt.mp hshort) rfl
    rw [if_neg hshort]
    split
    · next hmatch =>
        rw [Option.some_inj, eq_comm]
        exact (and_iff_right (hmatches.mp hmatch)).symm
    · next hnot =>
        refine iff_of_false (Option.some_ne_none _).symm ?_
        exact fun h => hnot (hmatches.mpr h.1)

/-- What is left of a path has its later clauses. -/
theorem clauses_drop (n : ℕ) : (path.drop n).clauses = path.clauses.drop n :=
  rfl

variable (node) in
/-- **One database.**  It is told a path that matches a node just if the node
is in it, and the path that was asked for matches the node. -/
theorem told_matches_iff (hu : u.Documented)
    (symlinkTarget : PathText → Option PathText) {flags : TreeGatewayFlags}
    (hflags : flags.traverseSymlink = false)
    (hmount : ∀ c ∈ mount.clauses, IsLiteral u c)
    (hpath : u.canWildcardStringMatchMultipleValues path.text = true ∨
      ∀ c ∈ path.clauses, IsLiteral u c) :
    (∃ dist relativePath, getDatabaseSubpath u (mountedAt u mount) path.text =
        some (dist, relativePath) ∧
      Matches u (Segments.segmentsOf '/'
        (databaseSubpathToSessionRelativePath u symlinkTarget
          (mountedAt u mount) relativePath flags)) node) ↔
      mount.clauses <+: node ∧ Matches u path.clauses node := by
  cases hwild : u.canWildcardStringMatchMultipleValues path.text with
  | true =>
      have hsplit := List.take_append_drop mount.clauses.length path.clauses
      constructor
      · rintro ⟨dist, relativePath, hfound, hmatch⟩
        obtain ⟨hcut, hrest⟩ :=
          (getDatabaseSubpath_of_pattern mount path hu hwild).mp hfound
        obtain rfl := (Prod.mk.inj hrest).2
        rw [segmentsOf_databaseSubpath hu hflags, clauses_drop] at hmatch
        obtain ⟨rest, rfl, hbelow⟩ := (matches_literal_append hmount).mp hmatch
        refine ⟨⟨rest, rfl⟩, ?_⟩
        rw [← hsplit]
        exact matches_append hcut hbelow
      · rintro ⟨⟨rest, rfl⟩, hmatch⟩
        have hcut : Matches u (path.clauses.take mount.clauses.length)
            mount.clauses := List.forall₂_take_append _ _ _ hmatch
        have hfound := (getDatabaseSubpath_of_pattern mount path hu hwild).mpr
          ⟨hcut, rfl⟩
        refine ⟨_, _, hfound, ?_⟩
        rw [segmentsOf_databaseSubpath hu hflags, clauses_drop]
        refine (matches_literal_append hmount).mpr ⟨rest, rfl, ?_⟩
        exact List.forall₂_drop_append _ _ _ hmatch
  -- a path of a single node
  | false =>
      have hliteral := hpath.resolve_left (by simp [hwild])
      constructor
      · rintro ⟨dist, relativePath, hfound, hmatch⟩
        obtain ⟨rest, hclauses, -, rfl⟩ :=
          rest_of_getDatabaseSubpath hwild hfound
        rw [databaseSubpath_of_remaining hu hflags hclauses, SlashPath.text,
          Segments.segmentsOf_text path.segments] at hmatch
        obtain rfl := (matches_literal hliteral).mp hmatch
        exact ⟨⟨rest, hclauses.symm⟩, hmatch⟩
      · rintro ⟨hbegins, hmatch⟩
        obtain rfl := (matches_literal hliteral).mp hmatch
        obtain ⟨rest, hrest⟩ := hbegins
        refine ⟨_, _, getDatabaseSubpath_below hwild hrest.symm, ?_⟩
        rw [databaseSubpath_of_remaining hu hflags hrest.symm, SlashPath.text,
          Segments.segmentsOf_text path.segments]
        exact hmatch

end

section

variable {u : PathFunctions} {mounts : List (Option SlashPath)}

theorem mem_getDatabasesForNodePath {nodePath relativePath : PathText} {i : ℕ} :
    (i, relativePath) ∈
        getDatabasesForNodePath u (mountedDatabases u mounts) nodePath ↔
      ∃ (m : SlashPath) (dist : ℕ), mounts[i]? = some (some m) ∧
        getDatabaseSubpath u (mountedAt u m) nodePath =
          some (dist, relativePath) := by
  rw [getDatabasesForNodePath, List.mem_filterMap]
  constructor
  · rintro ⟨next, hnext, hfound⟩
    obtain ⟨found, hdistance, hpair⟩ := Option.map_eq_some_iff.mp hfound
    obtain ⟨rfl, rfl⟩ := Prod.mk.inj hpair
    obtain ⟨m, hm, hsub⟩ := mount_of_distanceIn hnext hdistance
    exact ⟨m, found.1, hm, hsub⟩
  · rintro ⟨m, dist, hm, hsub⟩
    refine ⟨_, mem_zipIdx_of_mount hm, ?_⟩
    rw [Option.bind_some, hsub]
    rfl

theorem mem_requestDeleteNodes {symlinkTarget : PathText → Option PathText}
    {flags : TreeGatewayFlags} {nodePath told : PathText} :
    told ∈ requestDeleteNodes u symlinkTarget (mountedDatabases u mounts)
        nodePath flags ↔
      ∃ (i : ℕ) (m : SlashPath) (dist : ℕ) (relativePath : PathText),
        mounts[i]? = some (some m) ∧
        getDatabaseSubpath u (mountedAt u m) nodePath =
          some (dist, relativePath) ∧
        databaseSubpathToSessionRelativePath u symlinkTarget (mountedAt u m)
          relativePath flags = told := by
  have hdatabase : ∀ (i : ℕ) (m : SlashPath), mounts[i]? = some (some m) →
      (mountedDatabases u mounts)[i]?.join = some (mountedAt u m) := by
    intro i m hm
    rw [mountedDatabases, List.getElem?_map, hm]
    rfl
  rw [requestDeleteNodes, List.mem_filterMap]
  constructor
  · rintro ⟨⟨i, relativePath⟩, hmem, htold⟩
    obtain ⟨m, dist, hm, hsub⟩ := mem_getDatabasesForNodePath.mp hmem
    dsimp only at htold
    rw [hdatabase i m hm] at htold
    exact ⟨i, m, dist, relativePath, hm, hsub, Option.some.inj htold⟩
  · rintro ⟨i, m, dist, relativePath, hm, hsub, rfl⟩
    refine ⟨(i, relativePath), ?_, ?_⟩
    · exact mem_getDatabasesForNodePath.mpr ⟨m, dist, hm, hsub⟩
    · dsimp only
      rw [hdatabase i m hm]
      rfl

end

/-- **Paths with wildcards.**  A database is told a path that matches one of
its nodes just if the path that was asked for, taken relative to the session,
matches the node.  The nodes that a request removes are those that match, in
all the databases, and no others. -/
theorem getDatabasesForNodePath_exact (u : PathFunctions) (hu : u.Documented)
    (mounts : List (Option SlashPath))
    (hmounts : ∀ (i : ℕ) (m : SlashPath), mounts[i]? = some (some m) →
      ∀ c ∈ m.clauses, IsLiteral u c)
    (pattern : RequestPath)
    (hpattern : u.canWildcardStringMatchMultipleValues
        pattern.sessionRelative.text = true ∨
      ∀ c ∈ pattern.sessionRelative.clauses, IsLiteral u c)
    (symlinkTarget : PathText → Option PathText) (flags : TreeGatewayFlags)
    (hflags : flags.traverseSymlink = false) :
    (∀ (i : ℕ) (m : SlashPath), mounts[i]? = some (some m) →
      ∀ x : List PathText,
        (∃ relativePath,
          (i, relativePath) ∈ getDatabasesForNodePath u
            (mountedDatabases u mounts) pattern.text ∧
          Matches u (Segments.segmentsOf '/'
            (databaseSubpathToSessionRelativePath u symlinkTarget
              (mountedAt u m) relativePath flags)) (m.clauses ++ x)) ↔
        Matches u pattern.sessionRelative.clauses (m.clauses ++ x)) ∧
    ∀ node : List PathText,
      (∃ told ∈ requestDeleteNodes u symlinkTarget (mountedDatabases u mounts)
          pattern.text flags, Matches u (Segments.segmentsOf '/' told) node) ↔
      (∃ (i : ℕ) (m : SlashPath), mounts[i]? = some (some m) ∧
        m.clauses <+: node) ∧
        Matches u pattern.sessionRelative.clauses node := by
  constructor
  · intro i m hm x
    have htold := told_matches_iff (m.clauses ++ x) hu symlinkTarget hflags
      (hmounts i m hm) hpattern
    rw [← getDatabaseSubpath_text hu (mountedAt u m) pattern] at htold
    rw [and_iff_right (List.prefix_append m.clauses x)] at htold
    rw [← htold]
    constructor
    · rintro ⟨relativePath, hmem, hmatch⟩
      obtain ⟨m', dist, hm', hsub⟩ := mem_getDatabasesForNodePath.mp hmem
      obtain rfl := Option.some.inj (Option.some.inj (hm.symm.trans hm'))
      exact ⟨dist, relativePath, hsub, hmatch⟩
    · rintro ⟨dist, relativePath, hsub, hmatch⟩
      refine ⟨relativePath, ?_, hmatch⟩
      exact mem_getDatabasesForNodePath.mpr ⟨m, dist, hm, hsub⟩
  · intro node
    constructor
    · rintro ⟨told, hmem, hmatch⟩
      obtain ⟨i, m, dist, relativePath, hm, hsub, rfl⟩ :=
        mem_requestDeleteNodes.mp hmem
      rw [getDatabaseSubpath_text hu] at hsub
      obtain ⟨hbegins, hnode⟩ :=
        (told_matches_iff node hu symlinkTarget hflags (hmounts i m hm)
          hpattern).mp
          ⟨dist, relativePath, hsub, hmatch⟩
      exact ⟨⟨i, m, hm, hbegins⟩, hnode⟩
    · rintro ⟨⟨i, m, hm, hbegins⟩, hnode⟩
      obtain ⟨dist, relativePath, hsub, hmatch⟩ :=
        (told_matches_iff node hu symlinkTarget hflags (hmounts i m hm)
          hpattern).mpr ⟨hbegins, hnode⟩
      rw [← getDatabaseSubpath_text hu] at hsub
      refine ⟨_, mem_requestDeleteNodes.mpr ?_, hmatch⟩
      exact ⟨i, m, dist, relativePath, hm, hsub, rfl⟩

/-- `db/*` -/
def dbPattern : SlashPath :=
  ⟨[['d', 'b'], ['*']], false, by simp [Segments.IsSegment], by simp⟩

/-- Any node below the mount path. -/
theorem getDatabasesForNodePath_exact_db :
    ∃ told ∈ requestDeleteNodes simpleFunctions (fun _ => none)
      (mountedDatabases simpleFunctions [some dbPath])
      (RequestPath.relative dbPattern).text {},
    Matches simpleFunctions (Segments.segmentsOf '/' told)
      [['d', 'b'], ['f', 'o', 'o']] := by
  have hmounts : ∀ (i : ℕ) (m : SlashPath), [some dbPath][i]? = some (some m) →
      ∀ c ∈ m.clauses, IsLiteral simpleFunctions c := by
    intro i m hm
    match i with
    | 0 =>
        obtain rfl := Option.some.inj (Option.some.inj hm)
        intro c hc
        obtain rfl := List.mem_singleton.mp hc
        exact isLiteral_simple (by simp)
  have hexact := getDatabasesForNodePath_exact simpleFunctions
    simpleFunctions_documented [some dbPath] hmounts (.relative dbPattern)
    (.inl (by decide)) (fun _ => none) {} rfl
  refine (hexact.2 [['d', 'b'], ['f', 'o', 'o']]).mpr ⟨?_, by decide⟩
  exact ⟨0, dbPath, rfl, by decide⟩

/-- `other/*/db/*` -/
def otherPattern : SlashPath :=
  ⟨[['o', 't', 'h', 'e', 'r'], ['*'], ['d', 'b'], ['*']], false,
    by simp [Segments.IsSegment], by simp⟩

/-- `*/*/d\b` -/
def escapedPattern : SlashPath :=
  ⟨[['*'], ['*'], ['d', '\\', 'b']], false, by simp [Segments.IsSegment],
    by simp⟩

/-- `a\b` -/
def escapedMount : SlashPath :=
  ⟨[['a', '\\', 'b']], false, by simp [Segments.IsSegment], by simp⟩

/-- `*` -/
def anyPattern : SlashPath :=
  ⟨[['*']], false, by simp [Segments.IsSegment], by simp⟩

/-- A pattern of another session is taken for one of this session; a mount path
that is a pattern of something else does not match itself; and a pattern that
can only match one path is compared with the mount path as a text. -/
theorem not_getDatabasesForNodePath_exact :
    (¬ Matches simpleFunctions otherPattern.clauses
        [['z', 'g'], ['0'], ['d', 'b'], ['f', 'o', 'o']] ∧
      ∃ relativePath,
        (0, relativePath) ∈ getDatabasesForNodePath simpleFunctions
          (mountedDatabases simpleFunctions [some dbPath])
          (RequestPath.absolute otherPattern).text ∧
        Matches simpleFunctions (Segments.segmentsOf '/'
          (databaseSubpathToSessionRelativePath simpleFunctions
            (fun _ => none) (mountedAt simpleFunctions dbPath) relativePath {}))
          [['d', 'b'], ['f', 'o', 'o']]) ∧
    (Matches simpleFunctions anyPattern.clauses escapedMount.clauses ∧
      ∀ relativePath,
        (0, relativePath) ∈ getDatabasesForNodePath simpleFunctions
          (mountedDatabases simpleFunctions [some escapedMount])
          (RequestPath.relative anyPattern).text →
        ¬ Matches simpleFunctions (Segments.segmentsOf '/'
          (databaseSubpathToSessionRelativePath simpleFunctions
            (fun _ => none) (mountedAt simpleFunctions escapedMount)
            relativePath {})) escapedMount.clauses) ∧
    (Matches simpleFunctions escapedPattern.clauses
        [['z', 'g'], ['0'], ['d', 'b']] ∧
      ∀ relativePath,
        (0, relativePath) ∉ getDatabasesForNodePath simpleFunctions
          (mountedDatabases simpleFunctions [some dbPath])
          (RequestPath.absolute escapedPattern).text) := by
  refine ⟨⟨by decide, ?_⟩, ⟨by decide, ?_⟩, ⟨by decide, ?_⟩⟩
  · have hcut := (getDatabaseSubpath_of_pattern dbPath (otherPattern.drop 2)
      simpleFunctions_documented (by decide)).mpr ⟨by decide, rfl⟩
    refine ⟨_, mem_getDatabasesForNodePath.mpr
      ⟨dbPath, _, rfl, (getDatabaseSubpath_text simpleFunctions_documented _
        (.absolute otherPattern)).trans hcut⟩, ?_⟩
    rw [segmentsOf_databaseSubpath simpleFunctions_documented rfl]
    decide
  · intro relativePath hmem
    obtain ⟨m, dist, hm, hsub⟩ := mem_getDatabasesForNodePath.mp hmem
    obtain rfl := Option.some.inj (Option.some.inj hm)
    obtain ⟨-, hfound⟩ := (getDatabaseSubpath_of_pattern escapedMount anyPattern
      simpleFunctions_documented (by decide)).mp hsub
    obtain rfl := (Prod.mk.inj hfound).2
    rw [segmentsOf_databaseSubpath simpleFunctions_documented rfl]
    decide
  · intro relativePath hmem
    obtain ⟨m, dist, hm, hsub⟩ := mem_getDatabasesForNodePath.mp hmem
    obtain rfl := Option.some.inj (Option.some.inj hm)
    rw [getDatabaseSubpath_text simpleFunctions_documented] at hsub
    have hplain : simpleFunctions.canWildcardStringMatchMultipleValues
        (escapedPattern.drop 2).text = false := by decide
    obtain ⟨rest, hrest, -⟩ := rest_of_getDatabaseSubpath hplain hsub
    exact absurd (List.cons.inj hrest).1 (by decide)

end ZgChoir.DatabasePaths

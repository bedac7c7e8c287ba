import ZgChoir.SheetLaws
import ZgChoir.UndoStackCommands

/-!
# Sheets can be undone

The MUSCLE for sheets keeps the laws that the undo stacks ask for, and the
database of sheets is mounted where they can live.
-/

namespace ZgChoir

open LiteralTree

variable {t : MessageTree Sheet} {parent : NodePath} {name : String}

theorem mem_childNames {P : Type} {t : MessageTree P} {path : NodePath} :
    name ∈ childNames t path ↔ path ++ [name] ∈ t.nodes := by
  unfold childNames
  rw [List.mem_filterMap]
  constructor
  · rintro ⟨q, hq, hname⟩
    split at hname
    · next hchild =>
      obtain ⟨rfl, hne⟩ := hchild
      have hlast : q.getLast hne = name := by
        exact Option.some.inj
          ((List.getLast?_eq_some_getLast hne).symm.trans hname)
      rw [← hlast, List.dropLast_concat_getLast]
      exact (mem_pathsBelow.mp (List.mem_reverse.mp hq)).2
    · cases hname
  · intro hmem
    refine ⟨path ++ [name], List.mem_reverse.mpr (mem_pathsBelow.mpr
      ⟨List.prefix_append _ _, hmem⟩), ?_⟩
    simp

/-- The changes that remove a node do so. -/
theorem removedAt_removeChanges (hmem : parent ++ [name] ∈ t.nodes) :
    RemovedAt t (TreeChange.applyAll t (removeChanges t (parent ++ [name])))
      parent name := by
  obtain ⟨-, hlookup⟩ := removeChanges_spec hmem
  refine ⟨fun q hq => ?_, ?_, fun q hne hq => ?_⟩
  · rw [hlookup q, if_pos hq]
  · have hnot : ¬ parent ++ [name] <+: parent := fun hpre => by
      simpa using hpre.length_le
    rw [hlookup parent, if_neg hnot, if_pos rfl]
  · rw [hlookup q, if_neg hq, if_neg hne]

/-- No pattern begins with the letter that the names of sequences begin
with. -/
private theorem sequenceName_ne (n : ℕ) : "I" ++ toString n ≠ "*" := by
  intro heq
  have hchars := congrArg String.toList heq
  simp at hchars

/-- **The laws of MUSCLE**, as far as undo stacks need them. -/
theorem sheetMuscle_lawfulForStacks : sheetMuscle.Lawful where
  lawful := sheetMuscle_lawful
  local_ := sheetMuscle_local
  what_emptyMessage := rfl
  what_setWhat _ _ := rfl
  what_addInt64 _ _ _ := rfl
  what_addString _ _ _ := rfl
  findInt64_emptyMessage _ := rfl
  findInt64_setWhat _ _ _ := rfl
  findInt64_addInt64 p field n hnone := by
    have hnone : p.front.int64s.lookup field = none := hnone
    change (p.front.int64s ++ [(field, n)]).lookup field = some n
    simp [List.lookup_append, hnone]
  findInt64_addInt64_of_ne p field n field' hne := by
    have hne : (field' == field) = false := by simpa using hne
    change (p.front.int64s ++ [(field, n)]).lookup field' =
      p.front.int64s.lookup field'
    cases hlookup : p.front.int64s.lookup field' <;>
      simp [List.lookup_append, List.lookup, hlookup, hne]
  findInt64_addString _ _ _ _ _ := rfl
  findInt64_removeName p field field' hne := by
    change (p.front.int64s.filter (·.1 ≠ field)).lookup field' =
      p.front.int64s.lookup field'
    generalize p.front.int64s = fields
    induction fields with
    | nil => rfl
    | cons entry fields ih =>
        obtain ⟨key, value⟩ := entry
        by_cases hkey : key = field
        · subst hkey
          have hother : (field' == key) = false := by simpa using hne
          simpa [List.lookup, hother] using ih
        · rw [List.filter_cons_of_pos (by simpa using hkey)]
          by_cases hsame : field' = key
          · simp [List.lookup, hsame]
          · have hother : (field' == key) = false := by simpa using hsame
            simpa [List.lookup, hother] using ih
  single_sequence path n hsingle := by
    simp only [sheetMuscle, List.contains_eq_mem, decide_eq_false_iff_not] at *
    intro hmem
    rcases List.mem_append.mp hmem with hmem | hmem
    · exact hsingle hmem
    · exact sequenceName_ne n (List.mem_singleton.mp hmem).symm
  setDataNode_indexed t path name payload hliteral hparent habsent := by
    have hset : sheetMuscle.setDataNode t (path ++ [name]) payload
        { addToIndex := true } none = .ofValid t
          (setChanges t (.page {}) (path ++ [name]) payload true none) := by
      simp [sheetMuscle, habsent]
    have hchanges : setChanges t (.page {}) (path ++ [name]) payload true
        none = [.payloadSet (path ++ [name]) payload,
          .indexInserted path (t.indexOf path).length name] := by
      simp [setChanges, insertionIndex, habsent,
        UndoStackMuscle.Lawful.missingParents_eq_nil hparent]
    have happlies : TreeChange.AppliesTo t
        (.payloadSet (path ++ [name]) payload) := by
      refine .inr (.inr ?_)
      rwa [List.dropLast_concat]
    have hother : ((TreeChange.payloadSet (path ++ [name])
        payload).applyTo t).lookup path = t.lookup path := by
      rw [TreeChange.lookup_payloadSet happlies, if_neg (by simp)]
    rw [hset, hchanges]
    refine Outcome.ofValid_of_valid
      (⟨happlies, ⟨?_, ?_⟩, trivial⟩ : TreeChange.Valid t
        [.payloadSet (path ++ [name]) payload,
          .indexInserted path (t.indexOf path).length name])
    · exact (mem_payloadSet happlies).mpr (.inl rfl)
    · rw [MessageTree.indexOf_eq_of_lookup_eq hother]
  removeDataNodes_plain t path name filter _ hfilter := by
    refine ⟨fun hmem => ?_, fun habsent => ?_⟩
    · obtain ⟨dn, hdn⟩ := MessageTree.mem_nodes_iff.mp hmem
      have hremove : sheetMuscle.removeDataNodes t (path ++ [name]) filter =
          .ofValid t (removeChanges t (path ++ [name])) := by
        simp [sheetMuscle, hdn, hfilter dn]
      rw [hremove, (Outcome.ofValid_of_valid (removeChanges_spec hmem).1).2]
      exact removedAt_removeChanges hmem
    · have hremove : sheetMuscle.removeDataNodes t (path ++ [name]) filter =
          .unchanged t .noError := by
        simp [sheetMuscle, MessageTree.lookup_eq_none.mpr habsent]
      rw [hremove]
      rfl
  removeChild t path name hmem := by
    have hremove : sheetMuscle.removeChild t path name =
        .ofValid t (removeChanges t (path ++ [name])) := by
      simp [sheetMuscle, hmem]
    obtain ⟨hstatus, hchanges⟩ :=
      Outcome.ofValid_of_valid (removeChanges_spec hmem).1
    rw [hremove, hchanges]
    exact ⟨hstatus, removedAt_removeChanges hmem⟩
  removeChild_absent t path name habsent := by
    have hremove : sheetMuscle.removeChild t path name =
        .unchanged t .dataNotFound := by
      simp [sheetMuscle, habsent]
    rw [hremove]
    rfl
  setData t path payload hmem := by
    have hvalid : TreeChange.Valid t [.payloadSet path payload] :=
      ⟨.inl hmem, trivial⟩
    exact (Outcome.ofValid_of_valid hvalid).2
  mem_getChildIterator _ _ _ := mem_childNames

theorem sheetMount_forStacks :
    sheetMount.ForStacks sheetMuscle.toMuscle where
  root_ne := by decide
  plain := ⟨rfl, by decide⟩
  literal := by
    intro stack hstack
    simp only [List.mem_cons, List.not_mem_nil, or_false] at hstack
    rcases hstack with rfl | rfl
    · exact ⟨rfl, by decide⟩
    · exact ⟨rfl, by decide⟩
  matchesItself := by decide
  owns q hq := isNodeInThisDatabase_alone (by decide) hq

/-- A command that works at a plain path below a node that is neither "undo"
nor "redo", or nowhere. -/
def TreeMessage.worksElsewhere {P : Type} : TreeMessage P → Bool
  | .updateNodeValue (clause :: _) _ flags _ _ =>
      !flags.traverseSymlink &&
        decide (clause ∉ ["undo", "redo", "*", ""])
  | .noop => true
  | _ => false

/-- Below another node a path leads apart from the stacks. -/
private theorem leadsApart_of_clause {clause stack : String} {path : NodePath}
    (hstack : stack ∈ ["undo", "redo"])
    (hclause : clause ∉ ["undo", "redo", "*", ""])
    (hpath : ["db", clause] <+: path) :
    LeadsApart sheetMuscle.toMuscle path (sheetMount.stackRoot stack) := by
  obtain ⟨below, rfl⟩ := hpath
  have hother : clause ≠ "*" ∧ clause ≠ stack := by
    constructor
    · rintro rfl
      simp at hclause
    · rintro rfl
      exact hclause (by simp only [List.mem_cons] at hstack ⊢; tauto)
  refine ⟨by simp, fun q hnames => ?_⟩
  have hq : ∃ rest, q = "db" :: clause :: rest := by
    rcases hnames with rfl | ⟨-, hlength, hmatch⟩
    · exact ⟨below, rfl⟩
    · match q, hlength, hmatch with
      | first :: second :: rest, hlength, hmatch =>
          simp [sheetMuscle, hother.1] at hmatch
          exact ⟨rest, by rw [← hmatch.2.1, ← hmatch.2.2.1]⟩
  obtain ⟨rest, rfl⟩ := hq
  simp [Apart, Mount.stackRoot, sheetMount, sheetMuscle, hother]

/-- **Such a command** has no business with the stacks. -/
theorem sheet_sparesStacks {msg : TreeMessage Sheet}
    (h : msg.worksElsewhere = true) :
    msg.SparesStacks sheetMount sheetMuscle.toMuscle := by
  cases msg with
  | updateNodeValue path optPayload flags optBefore optOpTag =>
      cases path with
      | nil => cases h
      | cons clause below =>
          simp only [TreeMessage.worksElsewhere, Bool.and_eq_true,
            Bool.not_eq_true', decide_eq_true_eq] at h
          obtain ⟨hlink, hclause⟩ := h
          have hwhole : ∀ t : MessageTree Sheet,
              databaseSubpathToSessionRelativePath sheetMuscle.toMuscle
                sheetMount t (clause :: below) flags =
                  "db" :: clause :: below := by
            intro t
            rw [databaseSubpathToSessionRelativePath, hlink]
            rfl
          intro t path hpath stack hstack
          refine leadsApart_of_clause hstack hclause ?_
          cases optPayload with
          | none =>
              simp only [TreeMessage.workPath, TreeMessage.target,
                Option.map_some, hwhole, Option.mem_some_iff] at hpath
              exact hpath ▸ ⟨below, rfl⟩
          | some payload =>
              simp only [TreeMessage.workPath, hwhole,
                Option.mem_some_iff] at hpath
              rw [← hpath, namedPart]
              split
              · next hlast =>
                cases below with
                | nil =>
                    simp only [List.getLast?_cons_cons, List.getLast?_singleton,
                      Option.some.injEq] at hlast
                    simp [hlast] at hclause
                | cons next below =>
                    exact ⟨(next :: below).dropLast, rfl⟩
              · exact ⟨below, rfl⟩
  | noop => simp [TreeMessage.SparesStacks, TreeMessage.workPath,
      TreeMessage.target]
  | _ => cases h

instance (f : NodePath → TreeGatewayFlags → Bool) (msg : TreeMessage Sheet) :
    Decidable (msg.Skipped f) :=
  match msg with
  | .updateNodeValue path _ flags _ _ =>
      inferInstanceAs (Decidable (f path flags = false))
  | .insertIndexEntry path .. =>
      inferInstanceAs (Decidable (f path {} = false))
  | .removeIndexEntry path .. =>
      inferInstanceAs (Decidable (f path {} = false))
  | .updateSubtree .. | .requestDeleteNodes .. | .moveIndexEntry ..
  | .batch _ | .noop | .unknown _ => .isFalse id

/-- All that the log has to replay either is skipped or works elsewhere. -/
def UndoStackState.replaysElsewhere (d : UndoStackState Sheet) : Bool :=
  d.updateLog.entries.all fun dbUp => dbUp.payload.all fun payload =>
    [false, true].all fun isRedo => (payload.findMessage isRedo).all fun msg =>
      msg.flatten.all fun subMsg =>
        decide (subMsg.Skipped isOkayDuringUndoRedo) || subMsg.worksElsewhere

theorem sheet_logSparesStacks {d : UndoStackState Sheet}
    (h : d.replaysElsewhere = true) :
    d.view.SparesStacks sheetMount sheetMuscle.toMuscle := by
  intro transID payload hpayload isRedo msg hmsg subMsg hsubMsg
  simp only [UndoStackState.view] at hpayload
  split at hpayload
  · cases hpayload
  · obtain ⟨dbUp, hdbUp, hpayload⟩ := Option.bind_eq_some_iff.mp hpayload
    have hentry := List.all_eq_true.mp h dbUp
      (OrderedTable.get?_eq_some.mp hdbUp).1
    rw [hpayload, Option.all_some] at hentry
    have hdirection := List.all_eq_true.mp hentry isRedo (by cases isRedo <;> simp)
    rw [hmsg, Option.all_some] at hdirection
    have hsub := List.all_eq_true.mp hdirection subMsg hsubMsg
    rcases Bool.or_eq_true_iff.mp hsub with hskipped | helsewhere
    · exact .inl (of_decide_eq_true hskipped)
    · exact .inr (sheet_sparesStacks helsewhere)

end ZgChoir

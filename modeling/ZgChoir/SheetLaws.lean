import ZgChoir.MuscleLaws
import ZgChoir.SheetMuscle

/-!
# The MUSCLE for sheets keeps the laws

Its methods check that each of their changes applies and refuse otherwise, so
what is left to show is that the changes do apply: parents come before what
they are parents of, index entries before what they name, and what is below a
node before the node.
-/

namespace ZgChoir

namespace LiteralTree

variable {P : Type} {t u : MessageTree P} {p q : NodePath}

/-! ### Creating parents -/

theorem mem_payloadSet {payload : P}
    (happlies : TreeChange.AppliesTo t (.payloadSet p payload)) :
    q ∈ ((TreeChange.payloadSet p payload).applyTo t).nodes ↔
      q = p ∨ q ∈ t.nodes := by
  rw [MessageTree.mem_nodes_iff, MessageTree.mem_nodes_iff,
    TreeChange.lookup_payloadSet happlies]
  by_cases hq : q = p
  · simp [hq]
  · simp [hq]

private theorem valid_parentsUpTo (t : MessageTree P) (p : NodePath)
    (payload : P) :
    ∀ k ≤ p.length,
      TreeChange.Valid t ((((List.range k).map (p.take ·)).filter
        fun q => decide (q ∉ t.nodes)).map (.payloadSet · payload)) ∧
      ∀ q, (q ∈ t.nodes ∨ ∃ j < k, q = p.take j) →
        q ∈ (TreeChange.applyAll t ((((List.range k).map (p.take ·)).filter
          fun q => decide (q ∉ t.nodes)).map
            (.payloadSet · payload))).nodes := by
  intro k
  induction k with
  | zero =>
      intro _
      refine ⟨trivial, fun q hq => ?_⟩
      rcases hq with hq | ⟨j, hj, -⟩
      · exact hq
      · omega
  | succ k ih =>
      intro hk
      obtain ⟨hvalid, hthere⟩ := ih (by omega)
      rw [List.range_succ, List.map_append, List.filter_append,
        List.map_append]
      by_cases hmem : p.take k ∈ t.nodes
      · have hnone : ([k].map (p.take ·)).filter
            (fun q => decide (q ∉ t.nodes)) = [] := by simp [hmem]
        rw [hnone, List.map_nil, List.append_nil]
        refine ⟨hvalid, fun q hq => hthere q ?_⟩
        rcases hq with hq | ⟨j, hj, rfl⟩
        · exact .inl hq
        · rcases Nat.lt_succ_iff_lt_or_eq.mp hj with hlt | rfl
          · exact .inr ⟨j, hlt, rfl⟩
          · exact .inl hmem
      · have hone : ([k].map (p.take ·)).filter
            (fun q => decide (q ∉ t.nodes)) = [p.take k] := by simp [hmem]
        rw [hone, List.map_singleton, TreeChange.valid_append,
          TreeChange.applyAll_append]
        have happlies : TreeChange.AppliesTo (TreeChange.applyAll t
            ((((List.range k).map (p.take ·)).filter
              fun q => decide (q ∉ t.nodes)).map (.payloadSet · payload)))
            (.payloadSet (p.take k) payload) := by
          cases k with
          | zero => exact .inr (.inl (by simp))
          | succ k =>
              refine .inr (.inr (hthere _ (.inr ⟨k, by omega, ?_⟩)))
              rw [List.dropLast_take (by omega)]
              rfl
        refine ⟨⟨hvalid, happlies, trivial⟩, fun q hq => ?_⟩
        rw [TreeChange.applyAll_cons, TreeChange.applyAll_nil,
          mem_payloadSet happlies]
        rcases hq with hq | ⟨j, hj, rfl⟩
        · exact .inr (hthere q (.inl hq))
        · rcases Nat.lt_succ_iff_lt_or_eq.mp hj with hlt | rfl
          · exact .inr (hthere _ (.inr ⟨j, hlt, rfl⟩))
          · exact .inl rfl

/-- What is missing above a node can be created top down, and then the node
itself. -/
theorem valid_setChanges (t : MessageTree P) (empty payload : P)
    (hne : p ≠ []) :
    TreeChange.Valid t ((t.missingParents p).map (.payloadSet · empty) ++
      [.payloadSet p payload]) := by
  obtain ⟨hvalid, hthere⟩ :=
    valid_parentsUpTo t p empty p.length le_rfl
  rw [TreeChange.valid_append]
  refine ⟨hvalid, .inr (.inr (hthere _ (.inr ⟨p.length - 1, ?_, ?_⟩))),
    trivial⟩
  · have := List.length_pos_iff.mpr hne
    omega
  · exact List.dropLast_eq_take

/-! ### Taking entries off an index -/

private theorem indexOf_indexRemoved {index : ℕ} {key : String}
    (happlies : TreeChange.AppliesTo t (.indexRemoved p index key)) :
    ((TreeChange.indexRemoved p index key).applyTo t).indexOf q =
      if q = p then (t.indexOf p).eraseIdx index else t.indexOf q := by
  unfold MessageTree.indexOf
  rw [TreeChange.lookup_indexRemoved happlies]
  by_cases hq : q = p
  · subst hq
    simp only [if_true]
    cases t.lookup q <;> simp
  · simp only [hq, if_false]

private theorem mem_indexRemoved {index : ℕ} {key : String}
    (happlies : TreeChange.AppliesTo t (.indexRemoved p index key)) :
    q ∈ ((TreeChange.indexRemoved p index key).applyTo t).nodes ↔
      q ∈ t.nodes := by
  rw [MessageTree.mem_nodes_iff, MessageTree.mem_nodes_iff,
    TreeChange.lookup_indexRemoved happlies]
  by_cases hq : q = p
  · subst hq
    cases t.lookup q <;> simp
  · simp [hq]

/-- A name can be taken off an index, entry by entry. -/
theorem valid_unlist (name : String) :
    ∀ (keys : List String) (u : MessageTree P) (before : List String),
      u.indexOf p = before ++ keys →
      TreeChange.Valid u (unlist p name before.length keys) ∧
      (∀ q, q ∈ (TreeChange.applyAll u
        (unlist p name before.length keys)).nodes ↔ q ∈ u.nodes) ∧
      ∀ q, (TreeChange.applyAll u (unlist p name before.length
        keys)).indexOf q =
          if q = p then before ++ keys.filter (· ≠ name)
          else u.indexOf q := by
  intro keys
  induction keys with
  | nil =>
      intro u before hindex
      refine ⟨trivial, fun q => Iff.rfl, fun q => ?_⟩
      by_cases hq : q = p
      · subst hq
        simpa [unlist] using hindex
      · simp [unlist, hq]
  | cons key keys ih =>
      intro u before hindex
      by_cases hkey : key = name
      · subst hkey
        have happlies : TreeChange.AppliesTo u
            (.indexRemoved p before.length key) := by
          have hget : (u.indexOf p)[before.length]? = some key := by
            rw [hindex]
            simp
          exact hget
        have hafter : ((TreeChange.indexRemoved p before.length
            key).applyTo u).indexOf p = before ++ keys := by
          rw [indexOf_indexRemoved happlies, if_pos rfl, hindex]
          simp [List.eraseIdx_append_of_length_le]
        obtain ⟨hvalid, hmem, hindices⟩ := ih _ before hafter
        simp only [unlist, if_true]
        refine ⟨⟨happlies, hvalid⟩, fun q => ?_, fun q => ?_⟩
        · exact (hmem q).trans (mem_indexRemoved happlies)
        · rw [TreeChange.applyAll_cons, hindices q,
            indexOf_indexRemoved happlies]
          by_cases hq : q = p <;> simp [hq]
      · have hlonger : u.indexOf p = (before ++ [key]) ++ keys := by
          simpa using hindex
        obtain ⟨hvalid, hmem, hindices⟩ := ih u (before ++ [key]) hlonger
        have hunlist : unlist p name before.length (key :: keys) =
            (unlist p name (before ++ [key]).length keys :
              List (TreeChange P)) := by
          simp [unlist, hkey]
        rw [hunlist]
        refine ⟨hvalid, hmem, fun q => ?_⟩
        rw [hindices q]
        by_cases hq : q = p <;> simp [hq, hkey]

/-- An index can be emptied. -/
private theorem valid_clear :
    ∀ (keys : List String) (u : MessageTree P), u.indexOf p = keys →
      TreeChange.Valid u (keys.map (.indexRemoved p 0 ·)) ∧
      (∀ q, q ∈ (TreeChange.applyAll u
        (keys.map (.indexRemoved p 0 ·))).nodes ↔ q ∈ u.nodes) ∧
      ∀ q, (TreeChange.applyAll u (keys.map (.indexRemoved p 0 ·))).indexOf q
        = if q = p then [] else u.indexOf q := by
  intro keys
  induction keys with
  | nil =>
      intro u hindex
      refine ⟨trivial, fun q => Iff.rfl, fun q => ?_⟩
      by_cases hq : q = p
      · subst hq
        simpa using hindex
      · simp [hq]
  | cons key keys ih =>
      intro u hindex
      have happlies : TreeChange.AppliesTo u (.indexRemoved p 0 key) := by
        have hget : (u.indexOf p)[0]? = some key := by rw [hindex]; rfl
        exact hget
      have hafter : ((TreeChange.indexRemoved p 0 key).applyTo u).indexOf p =
          keys := by
        rw [indexOf_indexRemoved happlies, if_pos rfl, hindex]
        rfl
      obtain ⟨hvalid, hmem, hindices⟩ := ih _ hafter
      refine ⟨⟨happlies, hvalid⟩, fun q => ?_, fun q => ?_⟩
      · exact (hmem q).trans (mem_indexRemoved happlies)
      · rw [List.map_cons, TreeChange.applyAll_cons, hindices q,
          indexOf_indexRemoved happlies]
        by_cases hq : q = p <;> simp [hq]

/-- The indices of many nodes can be emptied one after another. -/
theorem valid_clearAll :
    ∀ (paths : List NodePath) (u : MessageTree P), paths.Nodup →
      (∀ q ∈ paths, u.indexOf q = t.indexOf q) →
      TreeChange.Valid u (paths.flatMap (clearIndex t)) ∧
      (∀ q, q ∈ (TreeChange.applyAll u
        (paths.flatMap (clearIndex t))).nodes ↔ q ∈ u.nodes) ∧
      ∀ q, (TreeChange.applyAll u (paths.flatMap (clearIndex t))).indexOf q =
        if q ∈ paths then [] else u.indexOf q := by
  intro paths
  induction paths with
  | nil =>
      intro u _ _
      exact ⟨trivial, fun q => Iff.rfl, fun q => by simp⟩
  | cons path paths ih =>
      intro u hnodup hsame
      obtain ⟨hnot, hnodup'⟩ := List.nodup_cons.mp hnodup
      obtain ⟨hvalid, hmem, hindices⟩ := valid_clear (p := path)
        (t.indexOf path) u (hsame path List.mem_cons_self)
      have hsame' : ∀ q ∈ paths, (TreeChange.applyAll u
          (clearIndex t path)).indexOf q = t.indexOf q := by
        intro q hq
        have hne : q ≠ path := by
          rintro rfl
          exact hnot hq
        rw [clearIndex, hindices q, if_neg hne]
        exact hsame q (List.mem_cons_of_mem path hq)
      obtain ⟨hrest, hmem', hindices'⟩ := ih _ hnodup' hsame'
      rw [List.flatMap_cons, TreeChange.valid_append,
        TreeChange.applyAll_append]
      refine ⟨⟨hvalid, hrest⟩, fun q => (hmem' q).trans (hmem q),
        fun q => ?_⟩
      rw [hindices' q, clearIndex, hindices q]
      by_cases hq : q = path <;> simp [hq]

/-! ### Removing nodes -/

/-- Nodes can be removed one after another if what is below a node comes
before it. -/
theorem valid_removeAll :
    ∀ (paths : List NodePath) (u : MessageTree P),
      paths.Pairwise (fun a b => ¬ a <+: b) →
      (∀ q ∈ paths, q ∈ u.nodes ∧ u.indexOf q = []) →
      (∀ q ∈ paths, ∀ r ∈ u.nodes, r ≠ [] → r.dropLast = q → r ∈ paths) →
      (∀ q ∈ paths, ∀ name ∈ q.getLast?, name ∉ u.indexOf q.dropLast) →
      TreeChange.Valid u (paths.map .removed) ∧
      ∀ r, (TreeChange.applyAll u (paths.map .removed)).lookup r =
        if r ∈ paths then none else u.lookup r := by
  intro paths
  induction paths with
  | nil =>
      intro u _ _ _ _
      exact ⟨trivial, fun r => by simp⟩
  | cons path paths ih =>
      intro u horder hnodes hbelow hlisted
      obtain ⟨hfirst, horder'⟩ := List.pairwise_cons.mp horder
      have hnot : path ∉ paths := fun hmem =>
        hfirst path hmem (List.prefix_refl path)
      have happlies : TreeChange.AppliesTo u (.removed path) := by
        refine ⟨(hnodes path List.mem_cons_self).1,
          (hnodes path List.mem_cons_self).2, ?_,
          hlisted path List.mem_cons_self⟩
        intro r hr hr0 hparent
        have hmem := hbelow path List.mem_cons_self r
          (Finmap.mem_keys.mp hr) hr0 hparent
        have hpre : path <+: r := hparent ▸ List.dropLast_prefix r
        rcases List.mem_cons.mp hmem with rfl | htail
        · have hlength := congrArg List.length hparent
          have := List.length_pos_iff.mpr hr0
          rw [List.length_dropLast] at hlength
          omega
        · exact hfirst r htail hpre
      have hlookup : ∀ r, ((TreeChange.removed path).applyTo u).lookup r =
          if r = path then none else u.lookup r := fun r =>
        TreeChange.lookup_removed happlies
      have hkept : ∀ r, r ≠ path →
          ((TreeChange.removed path).applyTo u).indexOf r = u.indexOf r := by
        intro r hr
        rw [MessageTree.indexOf, hlookup r, if_neg hr]
        rfl
      have hmem' : ∀ r, r ∈ ((TreeChange.removed path).applyTo u).nodes ↔
          r ≠ path ∧ r ∈ u.nodes := by
        intro r
        rw [MessageTree.mem_nodes_iff, MessageTree.mem_nodes_iff, hlookup r]
        by_cases hr : r = path <;> simp [hr]
      have hnodes' : ∀ q ∈ paths,
          q ∈ ((TreeChange.removed path).applyTo u).nodes ∧
            ((TreeChange.removed path).applyTo u).indexOf q = [] := by
        intro q hq
        have hne : q ≠ path := by
          rintro rfl
          exact hnot hq
        obtain ⟨hin, hempty⟩ := hnodes q (List.mem_cons_of_mem path hq)
        exact ⟨(hmem' q).mpr ⟨hne, hin⟩, (hkept q hne).trans hempty⟩
      have hbelow' : ∀ q ∈ paths,
          ∀ r ∈ ((TreeChange.removed path).applyTo u).nodes, r ≠ [] →
            r.dropLast = q → r ∈ paths := by
        intro q hq r hr hr0 hparent
        obtain ⟨hne, hin⟩ := (hmem' r).mp hr
        exact (List.mem_cons.mp (hbelow q (List.mem_cons_of_mem path hq) r hin
          hr0 hparent)).resolve_left hne
      have hlisted' : ∀ q ∈ paths, ∀ name ∈ q.getLast?,
          name ∉ ((TreeChange.removed path).applyTo u).indexOf q.dropLast := by
        intro q hq name hname
        by_cases hup : q.dropLast = path
        · rw [MessageTree.indexOf, hlookup, if_pos hup]
          exact List.not_mem_nil
        · rw [hkept _ hup]
          exact hlisted q (List.mem_cons_of_mem path hq) name hname
      obtain ⟨hvalid, hlookups⟩ := ih _ horder' hnodes' hbelow' hlisted'
      refine ⟨⟨happlies, hvalid⟩, fun r => ?_⟩
      rw [List.map_cons, TreeChange.applyAll_cons, hlookups r, hlookup r]
      by_cases hr : r = path <;> simp [hr]

/-- The paths below a node, each before what is above it. -/
theorem mem_pathsBelow : q ∈ pathsBelow t p ↔ p <+: q ∧ q ∈ t.nodes := by
  have hsorted : ∀ s : Multiset NodePath, q ∈ sorted s ↔ q ∈ s := by
    intro s
    induction s using Quot.inductionOn with
    | h l => exact List.mem_insertionSort (· ≤ ·)
  simp only [pathsBelow, List.mem_reverse, List.mem_filter, hsorted,
    List.isPrefixOf_iff_prefix, Finset.mem_val, Finmap.mem_keys]
  exact and_comm

theorem pathsBelow_pairwise (t : MessageTree P) (p : NodePath) :
    (pathsBelow t p).Pairwise fun a b => ¬ a <+: b := by
  have hsorted : ∀ s : Multiset NodePath, s.Nodup →
      (sorted s).Pairwise fun a b => a < b := by
    intro s hs
    induction s using Quot.inductionOn with
    | h l =>
        have hnodup : (List.insertionSort (· ≤ ·) l).Nodup :=
          (List.perm_insertionSort (· ≤ ·) l).nodup_iff.mpr hs
        exact (List.pairwise_insertionSort (· ≤ ·) l).imp₂
          (fun a b hle hne => lt_of_le_of_ne hle hne) hnodup
  refine List.pairwise_reverse.mpr ?_
  refine ((hsorted _ t.nodes.keys.nodup).filter _).imp ?_
  intro a b hlt hpre
  exact List.IsPrefix.le hpre hlt

/-- A node is what it was, but for its index. -/
private theorem payload_of_indexRemoved {cs : List (TreeChange P)}
    (hcs : ∀ c ∈ cs, ∃ path index key, c = .indexRemoved path index key) :
    ∀ (node : Option (DataNode P)),
      (cs.foldl (fun node c => c.nodeAfter node) node).map (·.payload) =
        node.map (·.payload) := by
  induction cs with
  | nil => intro node; rfl
  | cons c cs ih =>
      intro node
      obtain ⟨path, index, key, rfl⟩ := hcs c List.mem_cons_self
      rw [List.foldl_cons, ih fun c' hc' => hcs c' (List.mem_cons_of_mem _ hc')]
      cases node <;> rfl

theorem mem_unlist {name : String} {c : TreeChange P} :
    ∀ {keys : List String} {before : ℕ}, c ∈ unlist p name before keys →
      ∃ index, c = .indexRemoved p index name := by
  intro keys
  induction keys with
  | nil => intro before hc; cases hc
  | cons key keys ih =>
      intro before hc
      unfold unlist at hc
      split at hc
      · rename_i hkey
        rcases List.mem_cons.mp hc with rfl | hc
        · exact ⟨before, by rw [hkey]⟩
        · exact ih hc
      · exact ih hc

/-- Of what removes a node, only the loss of its name concerns a node that is
not below it. -/
private theorem lookup_removeChanges {name : String} {r : NodePath}
    (hvalid : TreeChange.Valid t (removeChanges t (p ++ [name])))
    (hr : ¬ p ++ [name] <+: r)
    (hchanges : removeChanges t (p ++ [name]) =
      unlist p name 0 (t.indexOf p) ++
        (pathsBelow t (p ++ [name])).flatMap (clearIndex t) ++
        (pathsBelow t (p ++ [name])).map .removed) :
    (TreeChange.applyAll t (removeChanges t (p ++ [name]))).lookup r =
      ((unlist p name 0 (t.indexOf p)).filter (·.path = r)).foldl
        (fun node c => c.nodeAfter node) (t.lookup r) := by
  rw [TreeChange.lookup_applyAll hvalid, hchanges, List.filter_append,
    List.filter_append]
  have hclear : ((pathsBelow t (p ++ [name])).flatMap (clearIndex t)).filter
      (·.path = r) = [] := by
    refine List.filter_eq_nil_iff.mpr fun c hc => ?_
    obtain ⟨q, hq, hc⟩ := List.mem_flatMap.mp hc
    obtain ⟨key, -, rfl⟩ := List.mem_map.mp hc
    rintro heq
    obtain rfl : q = r := of_decide_eq_true heq
    exact hr (mem_pathsBelow.mp hq).1
  have hremoved : ((pathsBelow t (p ++ [name])).map
      (TreeChange.removed : NodePath → TreeChange P)).filter
        (·.path = r) = [] := by
    refine List.filter_eq_nil_iff.mpr fun c hc => ?_
    obtain ⟨q, hq, rfl⟩ := List.mem_map.mp hc
    rintro heq
    obtain rfl : q = r := of_decide_eq_true heq
    exact hr (mem_pathsBelow.mp hq).1
  rw [hclear, hremoved, List.append_nil, List.append_nil]

/-- **Removing a node.**  The changes apply, and what is left is the tree
without the node and what was below it, and without its name in the index of
its parent. -/
theorem removeChanges_spec {name : String} (hmem : p ++ [name] ∈ t.nodes) :
    TreeChange.Valid t (removeChanges t (p ++ [name])) ∧
    ∀ r, (TreeChange.applyAll t (removeChanges t (p ++ [name]))).lookup r =
      if p ++ [name] <+: r then none
      else if r = p then (t.lookup r).map fun node =>
        { node with index := node.index.filter (· ≠ name) }
      else t.lookup r := by
  have hchanges : removeChanges t (p ++ [name]) =
      unlist p name 0 (t.indexOf p) ++
        (pathsBelow t (p ++ [name])).flatMap (clearIndex t) ++
        (pathsBelow t (p ++ [name])).map .removed := by
    simp [removeChanges]
  obtain ⟨hvalid₁, hmem₁, hindex₁⟩ :=
    valid_unlist name (t.indexOf p) t [] (p := p) rfl
  rw [List.length_nil, List.nil_append] at hindex₁
  rw [List.length_nil] at hvalid₁ hmem₁
  have hparent : ¬ p ++ [name] <+: p := fun hpre => by
    have := hpre.length_le
    simp at this
  have hnodup : (pathsBelow t (p ++ [name])).Nodup :=
    (pathsBelow_pairwise t _).imp (S := fun a b => a ≠ b)
      fun {a b} hnot heq => hnot (heq ▸ List.prefix_refl a)
  have hsame : ∀ q ∈ pathsBelow t (p ++ [name]),
      (TreeChange.applyAll t (unlist p name 0 (t.indexOf p))).indexOf q =
        t.indexOf q := by
    intro q hq
    rw [hindex₁ q, if_neg]
    rintro rfl
    exact hparent (mem_pathsBelow.mp hq).1
  obtain ⟨hvalid₂, hmem₂, hindex₂⟩ := valid_clearAll (t := t)
    (pathsBelow t (p ++ [name])) _ hnodup hsame
  have hnodes : ∀ q ∈ pathsBelow t (p ++ [name]),
      q ∈ (TreeChange.applyAll (TreeChange.applyAll t
        (unlist p name 0 (t.indexOf p)))
        ((pathsBelow t (p ++ [name])).flatMap (clearIndex t))).nodes ∧
      (TreeChange.applyAll (TreeChange.applyAll t
        (unlist p name 0 (t.indexOf p)))
        ((pathsBelow t (p ++ [name])).flatMap
          (clearIndex t))).indexOf q = [] := by
    intro q hq
    exact ⟨(hmem₂ q).mpr ((hmem₁ q).mpr (mem_pathsBelow.mp hq).2),
      (hindex₂ q).trans (if_pos hq)⟩
  have hbelow : ∀ q ∈ pathsBelow t (p ++ [name]),
      ∀ r ∈ (TreeChange.applyAll (TreeChange.applyAll t
        (unlist p name 0 (t.indexOf p)))
        ((pathsBelow t (p ++ [name])).flatMap (clearIndex t))).nodes,
      r ≠ [] → r.dropLast = q → r ∈ pathsBelow t (p ++ [name]) := by
    rintro q hq r hr hr0 rfl
    exact mem_pathsBelow.mpr
      ⟨(mem_pathsBelow.mp hq).1.trans (List.dropLast_prefix r),
        (hmem₁ r).mp ((hmem₂ r).mp hr)⟩
  have hlisted : ∀ q ∈ pathsBelow t (p ++ [name]), ∀ key ∈ q.getLast?,
      key ∉ (TreeChange.applyAll (TreeChange.applyAll t
        (unlist p name 0 (t.indexOf p)))
        ((pathsBelow t (p ++ [name])).flatMap
          (clearIndex t))).indexOf q.dropLast := by
    intro q hq key hkey
    obtain ⟨⟨below, rfl⟩, hin⟩ := mem_pathsBelow.mp hq
    rw [hindex₂]
    split
    · exact List.not_mem_nil
    · rename_i hup
      -- only the node itself has its parent above it
      cases below using List.reverseRecOn with
      | nil =>
          have hkeyname : key = name := by simpa using hkey.symm
          have hup' : ((p ++ [name]) ++ []).dropLast = p := by simp
          rw [hup', hindex₁ p, if_pos rfl, hkeyname]
          simp
      | append_singleton below last =>
          refine absurd ?_ hup
          rw [← List.append_assoc, List.dropLast_concat]
          refine mem_pathsBelow.mpr ⟨⟨below, rfl⟩, ?_⟩
          exact t.mem_of_isPrefix hin ⟨[last], by simp⟩
  obtain ⟨hvalid₃, hlookup₃⟩ := valid_removeAll _ _
    (pathsBelow_pairwise t (p ++ [name])) hnodes hbelow hlisted
  have hvalid : TreeChange.Valid t (removeChanges t (p ++ [name])) := by
    rw [hchanges, TreeChange.valid_append, TreeChange.valid_append,
      TreeChange.applyAll_append]
    exact ⟨⟨hvalid₁, hvalid₂⟩, hvalid₃⟩
  refine ⟨hvalid, fun r => ?_⟩
  by_cases hr : p ++ [name] <+: r
  · rw [if_pos hr, hchanges, TreeChange.applyAll_append,
      TreeChange.applyAll_append, hlookup₃ r]
    split
    · rfl
    · rename_i hnot
      have hmissing : r ∉ t.nodes := fun hin =>
        hnot (mem_pathsBelow.mpr ⟨hr, hin⟩)
      exact Finmap.lookup_eq_none.mpr fun hin =>
        hmissing ((hmem₁ r).mp ((hmem₂ r).mp hin))
  · rw [if_neg hr, lookup_removeChanges hvalid hr hchanges,
      ← TreeChange.lookup_applyAll hvalid₁]
    by_cases hrp : r = p
    · subst hrp
      rw [if_pos rfl]
      have hpayload : ((TreeChange.applyAll t
          (unlist r name 0 (t.indexOf r))).lookup r).map (·.payload) =
            (t.lookup r).map (·.payload) := by
        rw [TreeChange.lookup_applyAll hvalid₁]
        refine payload_of_indexRemoved (fun c hc => ?_) _
        obtain ⟨index, rfl⟩ := mem_unlist (List.mem_filter.mp hc).1
        exact ⟨r, index, name, rfl⟩
      have hindex := hindex₁ r
      rw [if_pos rfl] at hindex
      obtain ⟨node, hnode⟩ := MessageTree.mem_nodes_iff.mp
        (t.mem_of_isPrefix hmem ⟨[name], rfl⟩)
      rw [hnode, Option.map_some] at hpayload
      obtain ⟨after, hafter, hsamePayload⟩ := Option.map_eq_some_iff.mp hpayload
      rw [MessageTree.indexOf, hafter, MessageTree.indexOf, hnode] at hindex
      rw [hafter, hnode, Option.map_some, ← hsamePayload]
      cases after
      simp_all
    · rw [if_neg hrp, TreeChange.lookup_applyAll hvalid₁]
      have hnone : (unlist p name 0 (t.indexOf p)).filter
          (fun c => decide (c.path = r)) = ([] : List (TreeChange P)) := by
        refine List.filter_eq_nil_iff.mpr fun c hc => ?_
        obtain ⟨index, rfl⟩ := mem_unlist hc
        exact fun heq => hrp (of_decide_eq_true heq).symm
      rw [hnone]
      rfl

private theorem unlist_of_notMem {name : String} :
    ∀ {keys : List String} {before : ℕ}, name ∉ keys →
      (unlist p name before keys : List (TreeChange P)) = [] := by
  intro keys
  induction keys with
  | nil => intro before _; rfl
  | cons key keys ih =>
      intro before hnot
      have hne : key ≠ name := by
        rintro rfl
        exact hnot List.mem_cons_self
      rw [unlist, if_neg hne]
      exact ih fun hmem => hnot (List.mem_cons_of_mem key hmem)

/-- Below a node without children there is only the node. -/
private theorem pathsBelow_of_childless (hmem : p ∈ t.nodes)
    (hchildless : ∀ q ∈ t.nodes, q ≠ [] → q.dropLast ≠ p) :
    pathsBelow t p = [p] := by
  have hall : ∀ q ∈ pathsBelow t p, q = p := by
    intro q hq
    obtain ⟨⟨below, rfl⟩, hin⟩ := mem_pathsBelow.mp hq
    cases below with
    | nil => simp
    | cons name below =>
        have hchild : p ++ [name] ∈ t.nodes :=
          t.mem_of_isPrefix hin ⟨below, by simp⟩
        exact absurd (by simp) (hchildless _ hchild (by simp))
  have hself : p ∈ pathsBelow t p :=
    mem_pathsBelow.mpr ⟨List.prefix_refl p, hmem⟩
  have horder := pathsBelow_pairwise t p
  cases hpaths : pathsBelow t p with
  | nil =>
      rw [hpaths] at hself
      cases hself
  | cons first rest =>
      rw [hpaths] at hall horder
      obtain rfl := hall first List.mem_cons_self
      cases rest with
      | nil => rfl
      | cons second rest =>
          obtain rfl := hall second (by simp)
          exact absurd (List.prefix_refl second)
            ((List.pairwise_cons.mp horder).1 second List.mem_cons_self)

end LiteralTree

/-! ### The laws -/

open LiteralTree

theorem Outcome.ofValid_of_valid {P : Type} {t : MessageTree P}
    {changes : List (TreeChange P)} (h : TreeChange.Valid t changes) :
    (ofValid t changes).status = .noError ∧
      (ofValid t changes).changes = changes := by
  rw [ofValid, dif_pos h]
  exact ⟨rfl, rfl⟩

theorem sheetMuscle_lawful : sheetMuscle.toMuscle.Lawful where
  getDataNode t path hliteral := rfl
  setDataNode t path payload hne hclauses := by
    have hvalid := valid_setChanges t sheetMuscle.emptyMessage payload hne
    have hchanges : setChanges t (.page {}) path payload false none =
        (t.missingParents path).map (.payloadSet · sheetMuscle.emptyMessage) ++
          [.payloadSet path payload] := by
      unfold setChanges
      cases path.getLast? <;> rfl
    have hset : sheetMuscle.setDataNode t path payload {} none =
        .ofValid t (setChanges t (.page {}) path payload false none) := by
      simp [sheetMuscle]
    rw [hset, hchanges]
    exact Outcome.ofValid_of_valid hvalid
  removeDataNodes t path node filter hne hliteral hnode hempty hchildless
      hfilter := by
    obtain ⟨parent, name, rfl⟩ : ∃ parent name, path = parent ++ [name] :=
      ⟨_, _, (List.dropLast_concat_getLast hne).symm⟩
    have hmem : parent ++ [name] ∈ t.nodes :=
      MessageTree.mem_nodes_iff.mpr ⟨node, hnode⟩
    have hindex : t.indexOf (parent ++ [name]) = [] := by
      rw [MessageTree.indexOf, hnode]
      exact hempty
    have hremove : sheetMuscle.removeDataNodes t (parent ++ [name]) filter =
        .ofValid t (removeChanges t (parent ++ [name])) := by
      simp [sheetMuscle, hnode, hfilter]
    have hchanges : removeChanges t (parent ++ [name]) =
        unlist parent name 0 (t.indexOf parent) ++
          [.removed (parent ++ [name])] := by
      simp [removeChanges, pathsBelow_of_childless hmem hchildless, clearIndex,
        hindex]
    obtain ⟨hstatus, hmade⟩ :=
      Outcome.ofValid_of_valid (removeChanges_spec hmem).1
    rw [hremove]
    refine ⟨hstatus, unlist parent name 0 (t.indexOf parent),
      hmade.trans hchanges, ?_, ?_⟩
    · intro c hc
      obtain ⟨index, rfl⟩ := mem_unlist hc
      simp [TreeChange.path]
    · intro hnot
      rw [List.dropLast_concat] at hnot
      exact unlist_of_notMem (hnot name (by simp))
  insertIndexEntryAt t path index key happlies := by
    have hvalid : TreeChange.Valid t [.indexInserted path index key] :=
      ⟨happlies, trivial⟩
    exact (Outcome.ofValid_of_valid hvalid).2
  removeIndexEntryAt t path index key happlies := by
    have hkey : (t.indexOf path)[index]? = some key := happlies
    have hremove : sheetMuscle.removeIndexEntryAt t path index =
        .ofValid t [.indexRemoved path index key] := by
      simp [sheetMuscle, hkey]
    have hvalid : TreeChange.Valid t [.indexRemoved path index key] :=
      ⟨happlies, trivial⟩
    rw [hremove]
    exact (Outcome.ofValid_of_valid hvalid).2
  assembleNone msg prepend := rfl
  assembleAtEnd batch msg := by
    cases batch <;>
      simp [sheetMuscle, TreeMessage.flatten, TreeMessage.flatten.flattenAll,
        flattenAll_append]
  assembleInFront batch msg := by
    cases batch <;>
      simp [sheetMuscle, TreeMessage.flatten, TreeMessage.flatten.flattenAll]

end ZgChoir

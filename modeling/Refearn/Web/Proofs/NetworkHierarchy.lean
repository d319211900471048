import Refearn.Web.NetworkHierarchy
import Refearn.Support.ParentForest
import Refearn.Support.Transaction
/-!
# What the tree view lists

The rows are the listing of the forest of parent keys. What stands on a circle, or below one, is
below no root, and what stands below a node that cannot be opened is not reached: neither is
listed, and nothing says so.
-/

namespace Refearn.Web

open Support Support.Transaction
open ParentForest (Listed listing subtree roots)

variable {nodes : List NetworkHierarchyNode} {model : NetworkHierarchyModel}

/-! ## Lookups -/

theorem lookup_map_of_mem {β : Type} (f : NetworkHierarchyNode → β)
    (hkeys : (nodes.map hierarchyNodeKey).Nodup) {node : NetworkHierarchyNode}
    (hnode : node ∈ nodes) :
    (nodes.map fun n => (hierarchyNodeKey n, f n)).lookup (hierarchyNodeKey node) =
      some (f node) := by
  induction nodes with
  | nil => cases hnode
  | cons n rest ih =>
      rw [List.map_cons, List.nodup_cons] at hkeys
      rw [List.map_cons, List.lookup_cons]
      rcases List.mem_cons.mp hnode with rfl | hnode
      · simp
      · have hne : hierarchyNodeKey node ≠ hierarchyNodeKey n := fun heq =>
          hkeys.1 (heq ▸ List.mem_map_of_mem hnode)
        rw [beq_false_of_ne hne]
        exact ih hkeys.2 hnode

theorem lookup_map_eq_some {β : Type} {f : NetworkHierarchyNode → β} {key : String} {b : β}
    (h : (nodes.map fun n => (hierarchyNodeKey n, f n)).lookup key = some b) :
    ∃ node ∈ nodes, hierarchyNodeKey node = key ∧ f node = b := by
  obtain ⟨front, back, heq, -⟩ := List.lookup_eq_some_iff.mp h
  have hmem : (key, b) ∈ nodes.map fun n => (hierarchyNodeKey n, f n) := by
    rw [heq]
    exact List.mem_append_right _ List.mem_cons_self
  obtain ⟨node, hnode, hentry⟩ := List.mem_map.mp hmem
  obtain ⟨rfl, rfl⟩ := Prod.mk.inj hentry
  exact ⟨node, hnode, rfl, rfl⟩

theorem lookup_map_isSome {β : Type} (f : NetworkHierarchyNode → β) (key : String) :
    ((nodes.map fun n => (hierarchyNodeKey n, f n)).lookup key).isSome =
      decide (key ∈ nodes.map hierarchyNodeKey) := by
  induction nodes with
  | nil => rfl
  | cons n rest ih =>
      rw [List.map_cons, List.lookup_cons, List.map_cons]
      by_cases hkey : key = hierarchyNodeKey n
      · simp [hkey]
      · rw [beq_false_of_ne hkey]
        simp [ih, hkey]

/-- Nodes of one key are one node. -/
theorem eq_of_hierarchyNodeKey_eq (hkeys : (nodes.map hierarchyNodeKey).Nodup)
    {m n : NetworkHierarchyNode} (hm : m ∈ nodes) (hn : n ∈ nodes)
    (heq : hierarchyNodeKey m = hierarchyNodeKey n) : m = n :=
  List.inj_on_of_nodup_map hkeys hm hn heq

def nodeIndex (nodes : List NetworkHierarchyNode) : List (String × NetworkHierarchyNode) :=
  nodes.map fun n => (hierarchyNodeKey n, n)

/-- The key that a node is listed under: that of its parent, where the parent is loaded. -/
def loadedParent (nodes : List NetworkHierarchyNode) (key : String) : Option String :=
  ((nodeIndex nodes).lookup key).bind fun n =>
    normalizedParent (nodeIndex nodes) (hierarchyParentKey n)

theorem parentNode_eq_some (hkeys : (nodes.map hierarchyNodeKey).Nodup)
    {n p : NetworkHierarchyNode} (hn : n ∈ nodes) :
    parentNode (nodeIndex nodes) (hierarchyParentKey n) = some p ↔
      RefersTo nodes n p ∧ hierarchyNodeKey p ≠ "" := by
  rw [parentNode, Option.bind_eq_some_iff]
  constructor
  · rintro ⟨key, hkey, hlookup⟩
    obtain ⟨hparent, hne⟩ := Option.filter_eq_some_iff.mp hkey
    obtain ⟨p', hp', rfl, rfl⟩ := lookup_map_eq_some hlookup
    exact ⟨⟨hn, hp', hparent⟩, of_decide_eq_true hne⟩
  · rintro ⟨⟨-, hp, hparent⟩, hne⟩
    exact ⟨_, Option.filter_eq_some_iff.mpr ⟨hparent, decide_eq_true hne⟩,
      lookup_map_of_mem (fun n => n) hkeys hp⟩

theorem loadedParent_hierarchyNodeKey (hkeys : (nodes.map hierarchyNodeKey).Nodup)
    {n : NetworkHierarchyNode} (hn : n ∈ nodes) :
    loadedParent nodes (hierarchyNodeKey n) =
      normalizedParent (nodeIndex nodes) (hierarchyParentKey n) := by
  rw [loadedParent, nodeIndex, lookup_map_of_mem (fun n => n) hkeys hn]
  rfl

theorem loadedParent_eq_some (hkeys : (nodes.map hierarchyNodeKey).Nodup)
    {n : NetworkHierarchyNode} (hn : n ∈ nodes) {key : String} :
    loadedParent nodes (hierarchyNodeKey n) = some key ↔
      ∃ p, RefersTo nodes n p ∧ hierarchyNodeKey p = key ∧ key ≠ "" := by
  rw [loadedParent_hierarchyNodeKey hkeys hn, normalizedParent, Option.filter_eq_some_iff,
    Bool.and_eq_true, nodeIndex, lookup_map_isSome (fun n => n) key]
  simp only [decide_eq_true_eq]
  constructor
  · rintro ⟨hparent, hne, hmem⟩
    obtain ⟨p, hp, rfl⟩ := List.mem_map.mp hmem
    exact ⟨p, ⟨hn, hp, hparent⟩, rfl, hne⟩
  · rintro ⟨p, ⟨-, hp, hparent⟩, rfl, hne⟩
    exact ⟨hparent, hne, List.mem_map_of_mem hp⟩

/-! ## The index -/

theorem foldlM_indexNode (done rest : List NetworkHierarchyNode) (index : NodeIndex) :
    rest.foldlM indexNode
        (done.map fun n => (hierarchyNodeKey n, n),
          done.map fun n => (hierarchyNodeKey n, hierarchyParentKey n)) = .ok index ↔
      (∀ n ∈ done, ∀ m ∈ rest, hierarchyNodeKey n ≠ hierarchyNodeKey m) ∧
        (rest.map hierarchyNodeKey).Nodup ∧
        index = ((done ++ rest).map fun n => (hierarchyNodeKey n, n),
          (done ++ rest).map fun n => (hierarchyNodeKey n, hierarchyParentKey n)) := by
  induction rest generalizing done with
  | nil =>
      simp only [List.foldlM_nil, List.append_nil, List.not_mem_nil, List.map_nil,
        List.nodup_nil, false_imp_iff, implies_true, true_and]
      exact ⟨fun h => (Except.ok.inj h).symm, fun h => congrArg Except.ok h.symm⟩
  | cons n rest ih =>
      rw [List.foldlM_cons, bind_eq_ok]
      have hrepeated : ((done.map fun n => (hierarchyNodeKey n, n)).lookup
          (hierarchyNodeKey n)).isSome = decide (hierarchyNodeKey n ∈ done.map hierarchyNodeKey) :=
        lookup_map_isSome (fun n => n) _
      simp only [indexNode, hrepeated, decide_eq_true_eq]
      by_cases hkey : hierarchyNodeKey n ∈ done.map hierarchyNodeKey
      · obtain ⟨m, hm, heq⟩ := List.mem_map.mp hkey
        simp only [if_pos hkey, reduceCtorEq, false_and, exists_false, false_iff]
        exact fun h => h.1 m hm n List.mem_cons_self heq
      · have hnext := ih (done ++ [n])
        simp only [List.map_append, List.map_cons, List.map_nil] at hnext
        simp only [if_neg hkey, Except.ok.injEq, exists_eq_left', hnext]
        constructor
        · rintro ⟨hsep, hnodup, rfl⟩
          refine ⟨fun d hd m hm => ?_, List.nodup_cons.mpr ⟨fun hmem => ?_, hnodup⟩, by simp⟩
          · rcases List.mem_cons.mp hm with rfl | hm
            · exact fun heq => hkey (heq ▸ List.mem_map_of_mem hd)
            · exact hsep d (List.mem_append_left _ hd) m hm
          · obtain ⟨m, hm, heq⟩ := List.mem_map.mp hmem
            exact hsep n (by simp) m hm heq.symm
        · rintro ⟨hsep, hnodup, rfl⟩
          rw [List.map_cons, List.nodup_cons] at hnodup
          refine ⟨fun d hd m hm => ?_, hnodup.2, by simp⟩
          rcases List.mem_append.mp hd with hd | hd
          · exact hsep d hd m (List.mem_cons_of_mem _ hm)
          · rw [List.mem_singleton.mp hd]
            exact fun heq => hnodup.1 (heq ▸ List.mem_map_of_mem hm)

/-! ## The children -/

theorem lookup_pushChild (parentKey p : Option String) (key : String)
    (children : List (Option String × List String)) :
    ((pushChild parentKey key children).lookup p).getD [] =
      (children.lookup p).getD [] ++ if parentKey = p then [key] else [] := by
  induction children with
  | nil =>
      simp only [pushChild, List.lookup_cons, List.lookup_nil]
      by_cases hp : parentKey = p
      · simp [hp]
      · simp [hp, beq_false_of_ne (Ne.symm hp)]
  | cons entry rest ih =>
      obtain ⟨q, keys⟩ := entry
      rw [pushChild]
      by_cases hq : q = parentKey
      · subst hq
        rw [if_pos rfl]
        by_cases hp : q = p
        · simp [hp]
        · simp [List.lookup_cons, beq_false_of_ne (Ne.symm hp), hp]
      · rw [if_neg hq]
        by_cases hp : p = q
        · subst hp
          simp [Ne.symm hq]
        · simp only [List.lookup_cons, beq_false_of_ne hp]
          exact ih

theorem foldlM_linkNode (nodesByKey : List (String × NetworkHierarchyNode))
    (entries : List (String × Option String))
    (children linked : List (Option String × List String))
    (h : entries.foldlM (linkNode nodesByKey) children = .ok linked) (p : Option String) :
    (linked.lookup p).getD [] = (children.lookup p).getD [] ++
      (entries.filter fun e => normalizedParent nodesByKey e.2 = p).map Prod.fst := by
  induction entries generalizing children with
  | nil =>
      obtain rfl := Except.ok.inj h
      simp
  | cons e rest ih =>
      rw [List.foldlM_cons, bind_eq_ok] at h
      obtain ⟨next, hnext, h⟩ := h
      unfold linkNode at hnext
      split_ifs at hnext
      obtain rfl := Except.ok.inj hnext
      rw [ih _ h, lookup_pushChild, List.filter_cons]
      by_cases hp : normalizedParent nodesByKey e.2 = p <;> simp [hp]

theorem foldlM_linkNode_isOk (nodesByKey : List (String × NetworkHierarchyNode))
    (entries : List (String × Option String))
    (children : List (Option String × List String)) :
    (∃ linked, entries.foldlM (linkNode nodesByKey) children = .ok linked) ↔
      ∀ e ∈ entries, (parentNode nodesByKey e.2).any isTierThreeTerminal = false := by
  induction entries generalizing children with
  | nil => simp [pure, Except.pure]
  | cons e rest ih =>
      simp only [List.foldlM_cons, bind_eq_ok, List.forall_mem_cons]
      by_cases hterminal : (parentNode nodesByKey e.2).any isTierThreeTerminal = true
      · simp [linkNode, hterminal]
      · rw [Bool.not_eq_true] at hterminal
        simp only [linkNode, hterminal, Bool.false_eq_true, if_false, Except.ok.injEq]
        simpa using ih _

/-! ## The model -/

/-- The maps that a list of nodes is built into. -/
structure BuiltFrom (nodes : List NetworkHierarchyNode) (model : NetworkHierarchyModel) :
    Prop where
  nodup : (nodes.map hierarchyNodeKey).Nodup
  nodesByKey : model.nodesByKey = nodeIndex nodes
  childrenOf (key : String) : childrenOf model key =
    ParentForest.children (nodes.map hierarchyNodeKey) (loadedParent nodes) key
  rootKeys : model.rootKeys = roots (nodes.map hierarchyNodeKey) (loadedParent nodes)

theorem linked_eq_filter (hkeys : (nodes.map hierarchyNodeKey).Nodup) (p : Option String) :
    ((nodes.map fun n => (hierarchyNodeKey n, hierarchyParentKey n)).filter fun e =>
        normalizedParent (nodeIndex nodes) e.2 = p).map Prod.fst =
      (nodes.map hierarchyNodeKey).filter fun key => loadedParent nodes key = p := by
  rw [List.filter_map, List.filter_map, List.map_map]
  refine congrArg (List.map hierarchyNodeKey) (List.filter_congr fun n hn => ?_)
  simp only [Function.comp_apply, loadedParent_hierarchyNodeKey hkeys hn]

theorem builtFrom_of_eq_ok (h : buildNetworkHierarchyModel nodes = .ok model) :
    BuiltFrom nodes model := by
  obtain ⟨index, hindex, h⟩ := bind_eq_ok.mp h
  obtain ⟨linked, hlinked, h⟩ := bind_eq_ok.mp h
  obtain ⟨-, hkeys, rfl⟩ := (foldlM_indexNode [] nodes index).mp hindex
  obtain rfl := Except.ok.inj h
  have hchildren (p : Option String) := (foldlM_linkNode _ _ _ _ hlinked p).trans
    (linked_eq_filter hkeys p)
  exact ⟨hkeys, rfl, fun key => hchildren (some key), hchildren none⟩

theorem eq_ok_iff_not_refused :
    (∃ model, buildNetworkHierarchyModel nodes = .ok model) ↔ ¬Refused nodes := by
  have hterminal (hkeys : (nodes.map hierarchyNodeKey).Nodup) :
      (∀ e ∈ nodes.map fun n => (hierarchyNodeKey n, hierarchyParentKey n),
        (parentNode (nodeIndex nodes) e.2).any isTierThreeTerminal = false) ↔
      ¬∃ node parent, RefersTo nodes node parent ∧ hierarchyNodeKey parent ≠ "" ∧
        isTierThreeTerminal parent = true := by
    rw [List.forall_mem_map]
    constructor
    · rintro h ⟨node, parent, hrefers, hne, hparent⟩
      have hnode := h node hrefers.1
      rw [(parentNode_eq_some hkeys hrefers.1).mpr ⟨hrefers, hne⟩] at hnode
      exact Bool.false_ne_true (hnode.symm.trans hparent)
    · intro h node hnode
      cases hparent : parentNode (nodeIndex nodes) (hierarchyParentKey node) with
      | none => rfl
      | some parent =>
          obtain ⟨hrefers, hne⟩ := (parentNode_eq_some hkeys hnode).mp hparent
          exact Bool.eq_false_iff.mpr fun hp => h ⟨node, parent, hrefers, hne, hp⟩
  rw [Refused, not_or, not_not]
  constructor
  · rintro ⟨model, h⟩
    obtain ⟨index, hindex, h⟩ := bind_eq_ok.mp h
    obtain ⟨linked, hlinked, -⟩ := bind_eq_ok.mp h
    obtain ⟨-, hkeys, rfl⟩ := (foldlM_indexNode [] nodes index).mp hindex
    exact ⟨hkeys, (hterminal hkeys).mp ((foldlM_linkNode_isOk _ _ _).mp ⟨linked, hlinked⟩)⟩
  · rintro ⟨hkeys, h⟩
    have hindex := (foldlM_indexNode [] nodes _).mpr ⟨nofun, hkeys, rfl⟩
    obtain ⟨linked, hlinked⟩ := (foldlM_linkNode_isOk (nodeIndex nodes) _ []).mpr
      ((hterminal hkeys).mpr h)
    exact ⟨_, bind_eq_ok.mpr ⟨_, hindex, bind_eq_ok.mpr ⟨linked, hlinked, rfl⟩⟩⟩

/-! ## The rows -/

def placeOf (row : VisibleHierarchyRow) : Place String := ⟨row.key, row.depth, row.parentKey⟩

/-- What is opened: what can be and is among the expanded keys. -/
def isOpened (nodes : List NetworkHierarchyNode) (model : NetworkHierarchyModel)
    (expandedKeys : List String) (key : String) : Bool :=
  ((nodeIndex nodes).lookup key).any fun node =>
    isHierarchyNodeExpandable node (!(childrenOf model key).isEmpty) && expandedKeys.contains key

/-- A step of the traversal that lists these places, none of them visited before. -/
def Appends (nodes : List NetworkHierarchyNode) (places : List (Place String))
    (step : Traversal → Except HierarchyError Traversal) : Prop :=
  ∀ seen, (∀ y ∈ places, y.key ∉ seen.visited) →
    ∃ rows, step seen = .ok ⟨seen.rows ++ rows, seen.visited ++ places.map Place.key⟩ ∧
      rows.map placeOf = places ∧
      ∀ row ∈ rows, (nodeIndex nodes).lookup row.key = some row.node

theorem Appends.foldlM {places : String → List (Place String)} {keys : List String}
    {step : Traversal → String → Except HierarchyError Traversal}
    (h : ∀ key ∈ keys, Appends nodes (places key) fun seen => step seen key)
    (hnodup : ((keys.flatMap places).map Place.key).Nodup) :
    Appends nodes (keys.flatMap places) fun seen => keys.foldlM step seen := by
  induction keys with
  | nil =>
      intro seen _
      exact ⟨[], by simp [pure, Except.pure], rfl, nofun⟩
  | cons key keys ih =>
      intro seen hnew
      rw [List.flatMap_cons, List.map_append, List.nodup_append] at hnodup
      rw [List.flatMap_cons] at hnew ⊢
      obtain ⟨rows, hrows, hplaces, hnodes⟩ := h key List.mem_cons_self seen fun y hy =>
        hnew y (List.mem_append_left _ hy)
      have hrest : ∀ y ∈ keys.flatMap places,
          y.key ∉ seen.visited ++ (places key).map Place.key := fun y hy hmem => by
        rcases List.mem_append.mp hmem with hmem | hmem
        · exact hnew y (List.mem_append_right _ hy) hmem
        · exact hnodup.2.2 _ hmem _ (List.mem_map_of_mem hy) rfl
      obtain ⟨more, hmore, hplaces', hnodes'⟩ :=
        ih (fun k hk => h k (List.mem_cons_of_mem _ hk)) hnodup.2.1
          ⟨seen.rows ++ rows, seen.visited ++ (places key).map Place.key⟩ hrest
      refine ⟨rows ++ more, ?_, by rw [List.map_append, hplaces, hplaces'], fun row hrow =>
        (List.mem_append.mp hrow).elim (hnodes row) (hnodes' row)⟩
      change (key :: keys).foldlM step seen = _
      rw [List.foldlM_cons, bind_eq_ok]
      refine ⟨_, hrows, hmore.trans ?_⟩
      rw [List.append_assoc, List.append_assoc, ← List.map_append]

theorem appends_visit (hmodel : BuiltFrom nodes model) (expandedKeys : List String)
    {key : String} {depth fuel : Nat} {above : Option String}
    (hkey : Listed (nodes.map hierarchyNodeKey) (loadedParent nodes)
      (isOpened nodes model expandedKeys) key depth)
    (habove : above = loadedParent nodes key) (hfuel : nodes.length ≤ depth + fuel) :
    Appends nodes
      (subtree (nodes.map hierarchyNodeKey) (loadedParent nodes)
        (isOpened nodes model expandedKeys) fuel depth above key)
      fun seen => visit model expandedKeys fuel depth above seen key := by
  induction fuel generalizing key depth above with
  | zero =>
      have hlt := hkey.lt_length
      rw [List.length_map] at hlt
      omega
  | succ fuel ih =>
      intro seen hnew
      obtain ⟨node, hnode, rfl⟩ := List.mem_map.mp hkey.mem
      have hlookup : (nodeIndex nodes).lookup (hierarchyNodeKey node) = some node :=
        lookup_map_of_mem (fun n => n) hmodel.nodup hnode
      have hvisited : seen.visited.contains (hierarchyNodeKey node) = false := by
        rw [List.contains_eq_mem, decide_eq_false_iff_not]
        exact hnew ⟨_, depth, above⟩ (ParentForest.mem_subtree_succ.mpr (.inl rfl))
      set row := visibleRow model expandedKeys (hierarchyNodeKey node) node depth above with hrow
      have hopened : isOpened nodes model expandedKeys (hierarchyNodeKey node) = row.expanded := by
        rw [isOpened, hlookup]
        rfl
      have hnodup : ((subtree (nodes.map hierarchyNodeKey) (loadedParent nodes)
          (isOpened nodes model expandedKeys) (fuel + 1) depth above
          (hierarchyNodeKey node)).map Place.key).Nodup :=
        ParentForest.nodup_subtree hmodel.nodup hkey habove
      rw [subtree, hopened] at hnew hnodup ⊢
      rw [List.map_cons, List.nodup_cons] at hnodup
      simp only [visit, hvisited, Bool.false_eq_true, if_false, hmodel.nodesByKey, hlookup,
        ← hrow]
      cases hexpanded : row.expanded with
      | false =>
          simp only [Bool.false_eq_true, if_false]
          exact ⟨[row], rfl, rfl, fun r hr => List.mem_singleton.mp hr ▸ hlookup⟩
      | true =>
          simp only [if_true]
          rw [hexpanded] at hnew hnodup hopened
          simp only [if_true] at hnew hnodup
          rw [hmodel.childrenOf]
          have hchildren : Appends nodes
              ((ParentForest.children (nodes.map hierarchyNodeKey) (loadedParent nodes)
                (hierarchyNodeKey node)).flatMap (subtree (nodes.map hierarchyNodeKey)
                  (loadedParent nodes) (isOpened nodes model expandedKeys) fuel (depth + 1)
                  (some (hierarchyNodeKey node)))) fun seen =>
              (ParentForest.children (nodes.map hierarchyNodeKey) (loadedParent nodes)
                (hierarchyNodeKey node)).foldlM
                (visit model expandedKeys fuel (depth + 1) (some (hierarchyNodeKey node))) seen :=
            Appends.foldlM (fun c hc => by
              obtain ⟨hc, hparent⟩ := ParentForest.listed_of_mem_children hkey hopened hc
              exact ih hc hparent.symm (by omega)) hnodup.2
          obtain ⟨rows, hrows, hplaces, hnodes⟩ := hchildren
            ⟨seen.rows ++ [row], seen.visited ++ [hierarchyNodeKey node]⟩ fun y hy hmem => by
              rcases List.mem_append.mp hmem with hmem | hmem
              · exact hnew y (List.mem_cons_of_mem _ hy) hmem
              · have hkey' := List.mem_singleton.mp hmem
                exact hnodup.1 (List.mem_map.mpr ⟨y, hy, hkey'⟩)
          refine ⟨row :: rows, ?_, ?_, ?_⟩
          · refine hrows.trans ?_
            simp
          · rw [List.map_cons, hplaces]
            rfl
          · rintro r (_ | ⟨_, hr⟩)
            · exact hlookup
            · exact hnodes r hr

/-- The rows are the places of the listing, and the traversal always ends. -/
theorem flattenVisibleHierarchy_eq (hmodel : BuiltFrom nodes model) (expandedKeys : List String) :
    ∃ rows, flattenVisibleHierarchy model expandedKeys = .ok rows ∧
      rows.map placeOf = listing (nodes.map hierarchyNodeKey) (loadedParent nodes)
        (isOpened nodes model expandedKeys) nodes.length ∧
      ∀ row ∈ rows, (nodeIndex nodes).lookup row.key = some row.node := by
  have hroots : ∀ key ∈ roots (nodes.map hierarchyNodeKey) (loadedParent nodes),
      none = loadedParent nodes key := fun key hkey =>
    (of_decide_eq_true (List.mem_filter.mp hkey).2).symm
  have hlisting : Appends nodes (listing (nodes.map hierarchyNodeKey) (loadedParent nodes)
      (isOpened nodes model expandedKeys) nodes.length) fun seen =>
      (roots (nodes.map hierarchyNodeKey) (loadedParent nodes)).foldlM
        (visit model expandedKeys nodes.length 0 none) seen :=
    Appends.foldlM (fun key hkey => appends_visit hmodel expandedKeys
      (ParentForest.listed_of_mem_roots hkey) (hroots key hkey) (by omega))
    (ParentForest.nodup_listing hmodel.nodup)
  obtain ⟨rows, hrows, hplaces, hnodes⟩ := hlisting ⟨[], []⟩ fun _ _ => List.not_mem_nil
  refine ⟨rows, ?_, hplaces, hnodes⟩
  rw [flattenVisibleHierarchy, hmodel.rootKeys, hmodel.nodesByKey, nodeIndex, List.length_map]
  exact bind_eq_ok.mpr ⟨_, hrows, rfl⟩

/-! ## With every key expanded -/

/-- The places at which all nodes are expanded. -/
def unfolded (nodes : List NetworkHierarchyNode) (model : NetworkHierarchyModel) :
    String → Bool :=
  isOpened nodes model (nodes.map hierarchyNodeKey)

theorem unfolded_parent (hmodel : BuiltFrom nodes model) {n p : NetworkHierarchyNode}
    (hrefers : RefersTo nodes n p) (hne : hierarchyNodeKey p ≠ "") :
    unfolded nodes model (hierarchyNodeKey p) = isHierarchyNodeExpandable p true := by
  have hparent := (loadedParent_eq_some hmodel.nodup hrefers.1).mpr ⟨p, hrefers, rfl, hne⟩
  obtain ⟨hn, hp, -⟩ := hrefers
  have hchild : hierarchyNodeKey n ∈ childrenOf model (hierarchyNodeKey p) := by
    rw [hmodel.childrenOf]
    exact List.mem_filter.mpr ⟨List.mem_map_of_mem hn, decide_eq_true hparent⟩
  have hloaded : (childrenOf model (hierarchyNodeKey p)).isEmpty = false :=
    List.isEmpty_eq_false_iff_exists_mem.mpr ⟨_, hchild⟩
  have hkey : (nodes.map hierarchyNodeKey).contains (hierarchyNodeKey p) = true :=
    List.contains_iff_mem.mpr (List.mem_map_of_mem hp)
  rw [unfolded, isOpened, nodeIndex, lookup_map_of_mem (fun n => n) hmodel.nodup hp,
    Option.any_some, hloaded, hkey, Bool.not_false, Bool.and_true]

/-- The nodes of the rows are those whose parents lead to a root, each of them once. -/
theorem perm_rows_iff (hmodel : BuiltFrom nodes model) {rows : List VisibleHierarchyRow}
    (hplaces : rows.map placeOf = listing (nodes.map hierarchyNodeKey) (loadedParent nodes)
      (unfolded nodes model) nodes.length)
    (hrows : ∀ row ∈ rows, (nodeIndex nodes).lookup row.key = some row.node) :
    (rows.map VisibleHierarchyRow.node).Perm nodes ↔
      ∀ n ∈ nodes, ∃ d, Listed (nodes.map hierarchyNodeKey) (loadedParent nodes)
        (unfolded nodes model) (hierarchyNodeKey n) d := by
  have hkeys : (rows.map VisibleHierarchyRow.node).map hierarchyNodeKey =
      (listing (nodes.map hierarchyNodeKey) (loadedParent nodes) (unfolded nodes model)
        nodes.length).map Place.key := by
    rw [← hplaces, List.map_map, List.map_map]
    refine List.map_congr_left fun row hrow => ?_
    obtain ⟨n, -, hkey, rfl⟩ := lookup_map_eq_some (hrows row hrow)
    exact hkey
  have hlisted (n : NetworkHierarchyNode) : hierarchyNodeKey n ∈
      (listing (nodes.map hierarchyNodeKey) (loadedParent nodes) (unfolded nodes model)
        nodes.length).map Place.key ↔ ∃ d, Listed (nodes.map hierarchyNodeKey)
          (loadedParent nodes) (unfolded nodes model) (hierarchyNodeKey n) d :=
    ParentForest.mem_listing_iff (List.length_map hierarchyNodeKey).le
  have hmem : ∀ row ∈ rows, row.node ∈ nodes := fun row hrow => by
    obtain ⟨n, hn, -, heq⟩ := lookup_map_eq_some (hrows row hrow)
    exact heq ▸ hn
  constructor
  · intro hperm n hn
    refine (hlisted n).mp (hkeys ▸ ?_)
    exact List.mem_map_of_mem (hperm.mem_iff.mpr hn)
  · intro h
    have hnodup : (rows.map VisibleHierarchyRow.node).Nodup :=
      List.Nodup.of_map hierarchyNodeKey (hkeys ▸ ParentForest.nodup_listing hmodel.nodup)
    refine (List.perm_ext_iff_of_nodup hnodup hmodel.nodup.of_map).mpr fun n => ⟨fun hn => ?_,
      fun hn => ?_⟩
    · obtain ⟨row, hrow, rfl⟩ := List.mem_map.mp hn
      exact hmem row hrow
    · have hkey := (hlisted n).mpr (h n hn)
      rw [← hkeys] at hkey
      obtain ⟨m, hm, heq⟩ := List.mem_map.mp hkey
      obtain ⟨row, hrow, rfl⟩ := List.mem_map.mp hm
      exact eq_of_hierarchyNodeKey_eq hmodel.nodup (hmem row hrow) hn heq ▸ hm

theorem loadedParent_of_link (hmodel : BuiltFrom nodes model)
    (hopen : ParentsOpen nodes) {n p : NetworkHierarchyNode} (hrefers : RefersTo nodes n p) :
    loadedParent nodes (hierarchyNodeKey n) = some (hierarchyNodeKey p) :=
  (loadedParent_eq_some hmodel.nodup hrefers.1).mpr ⟨p, hrefers, rfl, (hopen n p hrefers).1⟩

/-- A path of keys is a path of the nodes that have them. -/
theorem exists_refersTo_of_keys (hmodel : BuiltFrom nodes model) {key target : String}
    (h : Relation.TransGen (fun c p => loadedParent nodes c = some p) key target)
    {n : NetworkHierarchyNode} (hn : n ∈ nodes) (hkey : hierarchyNodeKey n = key) :
    ∃ p ∈ nodes, hierarchyNodeKey p = target ∧ Relation.TransGen (RefersTo nodes) n p := by
  induction h with
  | single hlink =>
      obtain ⟨p, hrefers, hp, -⟩ := (loadedParent_eq_some hmodel.nodup hn).mp (hkey ▸ hlink)
      exact ⟨p, hrefers.2.1, hp, .single hrefers⟩
  | tail _ hlink ih =>
      obtain ⟨q, hq, rfl, hpath⟩ := ih
      obtain ⟨p, hrefers, hp, -⟩ := (loadedParent_eq_some hmodel.nodup hq).mp hlink
      exact ⟨p, hrefers.2.1, hp, hpath.tail hrefers⟩

theorem exists_listed_of_freeOfCircles (hmodel : BuiltFrom nodes model)
    (hfree : FreeOfCircles nodes) (hopen : ParentsOpen nodes) {n : NetworkHierarchyNode}
    (hn : n ∈ nodes) : ∃ d, Listed (nodes.map hierarchyNodeKey) (loadedParent nodes)
      (unfolded nodes model) (hierarchyNodeKey n) d := by
  refine ParentForest.exists_listed ?_ ?_ (List.mem_map_of_mem hn)
  · intro key hkey q hq
    obtain ⟨m, hm, rfl⟩ := List.mem_map.mp hkey
    obtain ⟨p, hrefers, rfl, hne⟩ := (loadedParent_eq_some hmodel.nodup hm).mp hq
    exact ⟨List.mem_map_of_mem hrefers.2.1,
      (unfolded_parent hmodel hrefers hne).trans (hopen m p hrefers).2⟩
  · intro key hkey hcircle
    obtain ⟨m, hm, rfl⟩ := List.mem_map.mp hkey
    obtain ⟨p, hp, hkey, hpath⟩ := exists_refersTo_of_keys hmodel hcircle hm rfl
    obtain rfl := eq_of_hierarchyNodeKey_eq hmodel.nodup hp hm hkey
    exact hfree p hpath

/-- A row whose node has its parent among the rows comes after it, one deeper. -/
theorem exists_row_above (hmodel : BuiltFrom nodes model) {rows : List VisibleHierarchyRow}
    (hplaces : rows.map placeOf = listing (nodes.map hierarchyNodeKey) (loadedParent nodes)
      (unfolded nodes model) nodes.length)
    (hrows : ∀ row ∈ rows, (nodeIndex nodes).lookup row.key = some row.node)
    {front back : List VisibleHierarchyRow} {row : VisibleHierarchyRow}
    (hsplit : rows = front ++ row :: back) {parent : NetworkHierarchyNode}
    (hparent : loadedParent nodes row.key = some (hierarchyNodeKey parent))
    (hmem : parent ∈ nodes) :
    ∃ above ∈ front, above.node = parent ∧ row.depth = above.depth + 1 := by
  have hlisting : listing (nodes.map hierarchyNodeKey) (loadedParent nodes)
      (unfolded nodes model) nodes.length =
        front.map placeOf ++ placeOf row :: back.map placeOf := by
    rw [← hplaces, hsplit, List.map_append, List.map_cons]
  have hplace : placeOf row ∈ listing (nodes.map hierarchyNodeKey) (loadedParent nodes)
      (unfolded nodes model) nodes.length := by
    rw [hlisting]
    exact List.mem_append_right _ List.mem_cons_self
  have habove : (placeOf row).above = some (hierarchyNodeKey parent) :=
    (ParentForest.of_mem_listing hplace).2.trans hparent
  obtain ⟨z, hz, hkey, hdepth⟩ :=
    ParentForest.followsParents_listing.of_split hlisting habove
  rw [List.nil_append] at hz
  obtain ⟨above, hfront, rfl⟩ := List.mem_map.mp hz
  refine ⟨above, hfront, ?_, hdepth⟩
  obtain ⟨n, hn, hkey', hnode⟩ := lookup_map_eq_some
    (hrows above (hsplit ▸ List.mem_append_left _ hfront))
  exact hnode ▸ eq_of_hierarchyNodeKey_eq hmodel.nodup hn hmem (hkey'.trans hkey)

theorem losesNoNode_of_parentsOpen (hfree : FreeOfCircles nodes) (hopen : ParentsOpen nodes) :
    LosesNoNode nodes := by
  intro model rows hbuilt hflat
  have hmodel := builtFrom_of_eq_ok hbuilt
  obtain ⟨rows', hflat', hplaces, hrows⟩ :=
    flattenVisibleHierarchy_eq hmodel (nodes.map hierarchyNodeKey)
  obtain rfl := Except.ok.inj (hflat.symm.trans hflat')
  refine ⟨(perm_rows_iff hmodel hplaces hrows).mpr fun n hn =>
    exists_listed_of_freeOfCircles hmodel hfree hopen hn, ?_⟩
  intro front row back hsplit parent hrefers
  refine exists_row_above hmodel hplaces hrows hsplit ?_ hrefers.2.1
  obtain ⟨n, -, hkey, rfl⟩ := lookup_map_eq_some
    (hrows row (hsplit ▸ List.mem_append_right _ List.mem_cons_self))
  exact hkey ▸ loadedParent_of_link hmodel hopen hrefers

theorem parentsOpen_of_losesNoNode (hmodel : BuiltFrom nodes model)
    {rows : List VisibleHierarchyRow}
    (hplaces : rows.map placeOf = listing (nodes.map hierarchyNodeKey) (loadedParent nodes)
      (unfolded nodes model) nodes.length)
    (hlisted : ∀ n ∈ nodes, ∃ d, Listed (nodes.map hierarchyNodeKey) (loadedParent nodes)
      (unfolded nodes model) (hierarchyNodeKey n) d)
    (hrows : ∀ row ∈ rows, (nodeIndex nodes).lookup row.key = some row.node)
    (hperm : (rows.map VisibleHierarchyRow.node).Perm nodes)
    (hafter : ∀ front row back, rows = front ++ row :: back →
      ∀ parent, RefersTo nodes row.node parent →
        ∃ above ∈ front, above.node = parent ∧ row.depth = above.depth + 1) :
    ParentsOpen nodes := by
  intro n p hrefers
  obtain ⟨d, hd⟩ := hlisted n hrefers.1
  have hne : hierarchyNodeKey p ≠ "" := by
    intro hempty
    -- the empty key names no parent, so the node is listed as a root
    obtain ⟨row, hrow, rfl⟩ := List.mem_map.mp (hperm.mem_iff.mpr hrefers.1)
    obtain ⟨front, back, hsplit⟩ := List.append_of_mem hrow
    obtain ⟨above, -, -, hdepth⟩ := hafter front row back hsplit p hrefers
    obtain ⟨m, hm, hkey, hnode⟩ := lookup_map_eq_some (hrows row hrow)
    have hroot : loadedParent nodes row.key = none := by
      rw [← hkey, hnode, loadedParent_hierarchyNodeKey hmodel.nodup hrefers.1, hrefers.2.2,
        hempty]
      rfl
    have hplace : placeOf row ∈ listing (nodes.map hierarchyNodeKey) (loadedParent nodes)
        (unfolded nodes model) nodes.length := hplaces ▸ List.mem_map_of_mem hrow
    have hrowListed := (ParentForest.of_mem_listing hplace).1
    have hzero := hrowListed.unique (.root hrowListed.mem hroot)
    exact absurd (hdepth.symm.trans hzero) (Nat.succ_ne_zero _)
  have hparent := (loadedParent_eq_some hmodel.nodup hrefers.1).mpr ⟨p, hrefers, rfl, hne⟩
  exact ⟨hne, (unfolded_parent hmodel hrefers hne).symm.trans (hd.of_parent hparent).1⟩

/-- A list is listed whole exactly if it is refused, or its parent keys run in no circle and all
that have loaded children can be opened. -/
theorem losesNoNode_iff (nodes : List NetworkHierarchyNode) :
    LosesNoNode nodes ↔ Refused nodes ∨ FreeOfCircles nodes ∧ ParentsOpen nodes := by
  constructor
  · intro h
    by_cases hrefused : Refused nodes
    · exact .inl hrefused
    · right
      obtain ⟨model, hbuilt⟩ := eq_ok_iff_not_refused.mpr hrefused
      have hmodel := builtFrom_of_eq_ok hbuilt
      obtain ⟨rows, hflat, hplaces, hrows⟩ :=
        flattenVisibleHierarchy_eq hmodel (nodes.map hierarchyNodeKey)
      obtain ⟨hperm, hafter⟩ := h model rows hbuilt hflat
      have hlisted := (perm_rows_iff hmodel hplaces hrows).mp hperm
      have hopen := parentsOpen_of_losesNoNode hmodel hplaces hlisted hrows hperm hafter
      refine ⟨fun n hcircle => ?_, hopen⟩
      obtain ⟨p, hfirst, -⟩ := Relation.TransGen.head'_iff.mp hcircle
      obtain ⟨d, hd⟩ := hlisted n hfirst.1
      exact hd.not_circle (fun _ _ hlink => hlink) (hcircle.lift hierarchyNodeKey fun _ _ hlink =>
        loadedParent_of_link hmodel hopen hlink)
  · rintro (hrefused | ⟨hfree, hopen⟩)
    · intro model rows hbuilt
      exact absurd hrefused (eq_ok_iff_not_refused.mp ⟨model, hbuilt⟩)
    · exact losesNoNode_of_parentsOpen hfree hopen

/-- A node that is its own parent is accepted, and the view is empty. -/
theorem not_losesNoNode :
    buildNetworkHierarchyModel [.member "m" (some "m") true] =
        .ok ⟨[("m", .member "m" (some "m") true)], [(some "m", ["m"])], [("m", some "m")], []⟩ ∧
      ¬LosesNoNode [.member "m" (some "m") true] := by
  have hbuilt : buildNetworkHierarchyModel [.member "m" (some "m") true] =
      .ok ⟨[("m", .member "m" (some "m") true)], [(some "m", ["m"])], [("m", some "m")], []⟩ := by
    decide
  refine ⟨hbuilt, fun h => ?_⟩
  have hperm := (h _ [] hbuilt rfl).1
  exact List.cons_ne_nil _ _ hperm.symm.eq_nil

end Refearn.Web

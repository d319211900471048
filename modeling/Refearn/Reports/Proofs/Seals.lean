import Refearn.Reports.Proofs.AuditChain
/-!
# Seals that extend the chain

A seal extends the chain if its two reads see one state in which no other seal writes, and in
which no row without a hash stands before a sealed one. Where all seals read like this, every
state verifies.
-/

namespace Refearn.Reports

open Support

/-! ## Rows in sequence order -/

section Order

instance : Std.Total bySeq := ⟨fun a b => Nat.le_total a.seq b.seq⟩

instance : IsTrans AuditRow bySeq := ⟨fun _ _ _ hab hbc => Nat.le_trans hab hbc⟩

/-- One row comes before another. -/
def SeqLt (a b : AuditRow) : Prop := a.seq < b.seq

instance : Std.Irrefl SeqLt := ⟨fun a h => Nat.lt_irrefl a.seq h⟩

instance : Std.Antisymm SeqLt := ⟨fun _ _ h h' => absurd h' (Nat.lt_asymm h)⟩

variable {rows : Table AuditRow} {tenantId : Uuid}

theorem pairwise_seqLt_of_filter {p : AuditRow → Bool} (hseqs : (rows.rows.map AuditRow.seq).Nodup) :
    ((rows.rows.filter p).insertionSort bySeq).Pairwise SeqLt := by
  have hsorted := List.pairwise_insertionSort bySeq (rows.rows.filter p)
  have hnodup : (((rows.rows.filter p).insertionSort bySeq).map AuditRow.seq).Nodup := by
    have hperm := (List.perm_insertionSort bySeq (rows.rows.filter p)).map AuditRow.seq
    rw [hperm.nodup_iff]
    exact hseqs.sublist (List.filter_sublist.map _)
  have hne := List.pairwise_map.mp hnodup
  exact (hsorted.and hne).imp fun h => Nat.lt_of_le_of_ne h.1 h.2

theorem sealedRows_pairwise (hseqs : (rows.rows.map AuditRow.seq).Nodup) :
    (sealedRows rows tenantId).Pairwise SeqLt :=
  pairwise_seqLt_of_filter hseqs

theorem unsealedRows_pairwise (hseqs : (rows.rows.map AuditRow.seq).Nodup) :
    (unsealedRows rows tenantId).Pairwise SeqLt :=
  pairwise_seqLt_of_filter hseqs

/-- The rows after one of them has been rewritten. -/
theorem mem_updateKey_iff {a x : AuditRow} {f : AuditRow → AuditRow} {hf : KeepsIndexes f}
    (ha : a ∈ rows) : x ∈ rows.updateKey a.id f hf ↔ (x ∈ rows ∧ x.id ≠ a.id) ∨ x = f a := by
  rw [Table.mem_def, Table.rows_updateKey, List.mem_map]
  constructor
  · rintro ⟨y, hy, heq⟩
    by_cases hid : key y = a.id
    · rw [if_pos hid] at heq
      have hsame : y = a := Table.eq_of_key hy ha hid
      rw [← heq, hsame]
      exact .inr rfl
    · rw [if_neg hid] at heq
      rw [← heq]
      exact .inl ⟨hy, hid⟩
  · rintro (⟨hx, hid⟩ | heq)
    · have hid' : ¬key x = a.id := hid
      exact ⟨x, hx, if_neg hid'⟩
    · have hid : key a = a.id := rfl
      refine ⟨a, ha, ?_⟩
      rw [if_pos hid, heq]

end Order

/-! ## Calls on track -/

/-- What a running call still has to write comes after the chain, and it holds the head. -/
structure SealCall.OnTrack (rows : Table AuditRow) (call : SealCall) : Prop where
  head : call.left ≠ [] → call.prev = headHash rows call.tenantId
  unsealed : ∀ a ∈ call.left, a ∈ rows ∧ isUnsealed call.tenantId a = true
  sorted : call.left.Pairwise SeqLt
  after : ∀ a ∈ call.left, ∀ r ∈ sealedRows rows call.tenantId, SeqLt r a

theorem SealCall.onTrack_of_nil {rows : Table AuditRow} {call : SealCall}
    (h : call.left = []) : call.OnTrack rows := by
  constructor <;> rw [h]
  · exact fun hne => absurd rfl hne
  · exact fun a ha => absurd ha List.not_mem_nil
  · exact List.Pairwise.nil
  · exact fun a ha => absurd ha List.not_mem_nil

/-- A call sees the same head and the same rows. -/
theorem SealCall.OnTrack.of_same {rows rows' : Table AuditRow} {call : SealCall}
    (h : call.OnTrack rows)
    (hsealed : sealedRows rows' call.tenantId = sealedRows rows call.tenantId)
    (hkept : ∀ a ∈ call.left, a ∈ rows → a ∈ rows') : call.OnTrack rows' := by
  have hheads : headHash rows' call.tenantId = headHash rows call.tenantId := by
    unfold headHash
    rw [hsealed]
  constructor
  · rw [hheads]
    exact h.head
  · intro a ha
    obtain ⟨hmem, hunsealed⟩ := h.unsealed a ha
    exact ⟨hkept a ha hmem, hunsealed⟩
  · exact h.sorted
  · rw [hsealed]
    exact h.after

/-- Calls of one tenant do not write at the same time. -/
def Exclusive (sealing : List SealCall) : Prop :=
  ∀ (n m : Nat) (call other : SealCall), n ≠ m → sealing[n]? = some call →
    sealing[m]? = some other → call.tenantId = other.tenantId → call.left = [] ∨ other.left = []

/-- Adding a call with nothing to write. -/
theorem Exclusive.concat {sealing : List SealCall} (h : Exclusive sealing) {call : SealCall}
    (hcall : call.left = []) : Exclusive (sealing ++ [call]) := by
  have hnew : ∀ {m : Nat} {other : SealCall}, (sealing ++ [call])[m]? = some other →
      other.left = [] ∨ sealing[m]? = some other := by
    intro m other hm
    by_cases hlt : m < sealing.length
    · rw [List.getElem?_append_left hlt] at hm
      exact .inr hm
    · rw [List.getElem?_append_right (Nat.le_of_not_lt hlt)] at hm
      have heq := List.mem_singleton.mp (List.mem_of_getElem? hm)
      rw [heq]
      exact .inl hcall
  intro i j x y hne hi hj htenant
  rcases hnew hi with hnil | hi
  · exact .inl hnil
  · rcases hnew hj with hnil | hj
    · exact .inr hnil
    · exact h i j x y hne hi hj htenant

/-- The sealed rows of each tenant verify, and the running calls are on track. -/
structure AuditInvariant (env : ReportsEnv) (w : AuditWorld) : Prop where
  seqs : (w.rows.rows.map AuditRow.seq ++ w.inserting.map AuditRow.seq).Nodup
  below : ∀ s ∈ w.rows.rows.map AuditRow.seq ++ w.inserting.map AuditRow.seq, s < w.nextSeq
  fresh : ∀ a ∈ w.inserting, a.hash = none
  chained : ∀ tenantId,
    Chained (fieldsHash env) none ((sealedRows w.rows tenantId).map AuditRow.link)
  onTrack : ∀ call ∈ w.sealing, call.OnTrack w.rows
  exclusive : Exclusive w.sealing

theorem AuditInvariant.seqs_rows {env : ReportsEnv} {w : AuditWorld} (h : AuditInvariant env w) :
    (w.rows.rows.map AuditRow.seq).Nodup :=
  h.seqs.sublist (List.sublist_append_left _ _)

/-- Changing one call to a call with nothing to write. -/
theorem Exclusive.set {sealing : List SealCall} (h : Exclusive sealing) {n : Nat}
    {call : SealCall} (hcall : ∀ (m : Nat) (other : SealCall), m ≠ n → sealing[m]? = some other →
      call.tenantId = other.tenantId → call.left = [] ∨ other.left = []) :
    Exclusive (sealing.set n call) := by
  intro i j x y hne hi hj htenant
  rw [List.getElem?_set] at hi hj
  split_ifs at hi with hin hbound
  · cases hi
    rw [if_neg (fun hjn => hne (hin.symm.trans hjn))] at hj
    exact hcall j y (fun hjn => hne (hin.symm.trans hjn.symm)) hj htenant
  · split_ifs at hj with hjn hbound
    · cases hj
      exact (hcall i x (fun hni => hin hni.symm) hi htenant.symm).symm
    · exact h i j x y hne hi hj htenant

/-! ## Writing a row -/

/-- The rows after a seal has written one of them. -/
def writtenRows (rows : Table AuditRow) (a : AuditRow) (prev : Option String) (hash : String) :
    Table AuditRow :=
  rows.updateKey a.id (AuditRow.chained prev hash) (AuditRow.keepsIndexes_chained ..)

section Write

variable {rows : Table AuditRow} {tenantId : Uuid} {a x : AuditRow} {prev : Option String}
  {hash : String}

theorem mem_writtenRows (ha : a ∈ rows) : x ∈ writtenRows rows a prev hash ↔
    (x ∈ rows ∧ x.id ≠ a.id) ∨ x = a.chained prev hash :=
  mem_updateKey_iff ha

theorem seqs_writtenRows :
    (writtenRows rows a prev hash).rows.map AuditRow.seq = rows.rows.map AuditRow.seq := by
  unfold writtenRows
  rw [Table.rows_updateKey, List.map_map]
  refine List.map_congr_left fun r _ => ?_
  change (if key r = a.id then AuditRow.chained prev hash r else r).seq = r.seq
  split_ifs
  · rfl
  · rfl

theorem isSealed_chained (ha : isUnsealed tenantId a = true) :
    isSealed tenantId (a.chained prev hash) = true :=
  isSealed_iff.mpr ⟨(isUnsealed_iff.mp ha).1, rfl⟩

theorem mem_sealedRows_written (ha : a ∈ rows) (hunsealed : isUnsealed tenantId a = true) :
    x ∈ sealedRows (writtenRows rows a prev hash) tenantId ↔
      x ∈ sealedRows rows tenantId ∨ x = a.chained prev hash := by
  rw [mem_sealedRows, mem_writtenRows ha, mem_sealedRows]
  constructor
  · rintro ⟨⟨hx, -⟩ | heq, hsealed⟩
    · exact .inl ⟨hx, hsealed⟩
    · exact .inr heq
  · rintro (⟨hx, hsealed⟩ | heq)
    · refine ⟨.inl ⟨hx, fun hid => ?_⟩, hsealed⟩
      -- the row was not sealed before
      have hsame : x = a := Table.eq_of_key hx ha hid
      have hnone := (isUnsealed_iff.mp hunsealed).2
      have hsome := (isSealed_iff.mp hsealed).2
      rw [hsame, hnone] at hsome
      cases hsome
    · rw [heq]
      exact ⟨.inr rfl, isSealed_chained hunsealed⟩

theorem sealedRows_written_pairwise (hseqs : (rows.rows.map AuditRow.seq).Nodup) :
    (sealedRows (writtenRows rows a prev hash) tenantId).Pairwise SeqLt := by
  refine sealedRows_pairwise ?_
  rw [seqs_writtenRows]
  exact hseqs

/-- A row after the chain becomes its last one. -/
theorem sealedRows_written (hseqs : (rows.rows.map AuditRow.seq).Nodup) (ha : a ∈ rows)
    (hunsealed : isUnsealed tenantId a = true)
    (hafter : ∀ r ∈ sealedRows rows tenantId, SeqLt r a) :
    sealedRows (writtenRows rows a prev hash) tenantId =
      sealedRows rows tenantId ++ [a.chained prev hash] := by
  have hnew : (sealedRows rows tenantId ++ [a.chained prev hash]).Pairwise SeqLt := by
    refine List.pairwise_append.mpr ⟨sealedRows_pairwise hseqs, List.pairwise_singleton _ _, ?_⟩
    intro r hr x hx
    rw [List.mem_singleton.mp hx]
    exact hafter r hr
  refine (sealedRows_written_pairwise hseqs).eq_of_mem_iff hnew fun x => ?_
  rw [mem_sealedRows_written ha hunsealed, List.mem_append, List.mem_singleton]

theorem sealedRows_written_other (hseqs : (rows.rows.map AuditRow.seq).Nodup) (ha : a ∈ rows)
    (hother : a.tenantId ≠ some tenantId) :
    sealedRows (writtenRows rows a prev hash) tenantId = sealedRows rows tenantId := by
  refine (sealedRows_written_pairwise hseqs).eq_of_mem_iff (sealedRows_pairwise hseqs) fun x => ?_
  rw [mem_sealedRows, mem_writtenRows ha, mem_sealedRows]
  constructor
  · rintro ⟨⟨hx, -⟩ | heq, hsealed⟩
    · exact ⟨hx, hsealed⟩
    · rw [heq] at hsealed
      exact absurd (isSealed_iff.mp hsealed).1 hother
  · rintro ⟨hx, hsealed⟩
    refine ⟨.inl ⟨hx, fun hid => ?_⟩, hsealed⟩
    have hsame : x = a := Table.eq_of_key hx ha hid
    rw [hsame] at hsealed
    exact hother (isSealed_iff.mp hsealed).1

/-- What a call has left to write after its first row is still to be written. -/
theorem SealCall.OnTrack.written {left : List AuditRow}
    (h : SealCall.OnTrack rows ⟨tenantId, prev, .writing (a :: left)⟩)
    (hseqs : (rows.rows.map AuditRow.seq).Nodup) :
    SealCall.OnTrack (writtenRows rows a prev hash) ⟨tenantId, some hash, .writing left⟩ := by
  obtain ⟨ha, hunsealed⟩ := h.unsealed a List.mem_cons_self
  obtain ⟨hbefore, hleft⟩ := List.pairwise_cons.mp h.sorted
  have hgrown : sealedRows (writtenRows rows a prev hash) tenantId =
      sealedRows rows tenantId ++ [a.chained prev hash] :=
    sealedRows_written hseqs ha hunsealed (h.after a List.mem_cons_self)
  constructor
  · intro _
    change some hash = headHash (writtenRows rows a prev hash) tenantId
    unfold headHash
    rw [hgrown, List.getLast?_concat]
    rfl
  · intro x hx
    obtain ⟨hmem, hopen⟩ := h.unsealed x (List.mem_cons_of_mem _ hx)
    refine ⟨(mem_writtenRows ha).mpr (.inl ⟨hmem, fun hid => ?_⟩), hopen⟩
    have hsame : x = a := Table.eq_of_key hmem ha hid
    have hlt := hbefore x hx
    rw [hsame] at hlt
    exact Nat.lt_irrefl _ hlt
  · exact hleft
  · intro x hx r hr
    change r ∈ sealedRows (writtenRows rows a prev hash) tenantId at hr
    rw [hgrown] at hr
    rcases List.mem_append.mp hr with hr | hr
    · exact h.after x (List.mem_cons_of_mem _ hx) r hr
    · rw [List.mem_singleton.mp hr]
      exact hbefore x hx

end Write

/-! ## Steps -/

/-- The head that a call has read is still the head, no other call of the tenant writes, and
every row without a hash comes after the sealed ones. -/
def ReadsInOrder (w : AuditWorld) (n : Nat) (call : SealCall) : Prop :=
  call.prev = headHash w.rows call.tenantId ∧
    (∀ m (hm : m < w.sealing.length), m ≠ n → w.sealing[m].tenantId = call.tenantId →
      w.sealing[m].left.isEmpty = true) ∧
    ∀ a ∈ unsealedRows w.rows call.tenantId, ∀ r ∈ sealedRows w.rows call.tenantId, r.seq < a.seq

instance (w : AuditWorld) (n : Nat) (call : SealCall) : Decidable (ReadsInOrder w n call) :=
  inferInstanceAs (Decidable (_ ∧ _ ∧ _))

/-- A seal that reads the rows without a hash reads in order. -/
def AuditStep.InOrder (step : AuditStep) (w : AuditWorld) : Prop :=
  match step with
  | .readUnsealed n =>
      match w.sealing[n]? with
      | some ⟨tenantId, prev, .headRead⟩ => ReadsInOrder w n ⟨tenantId, prev, .headRead⟩
      | _ => True
  | _ => True

instance (step : AuditStep) (w : AuditWorld) : Decidable (step.InOrder w) := by
  unfold AuditStep.InOrder
  split
  · split
    · infer_instance
    · infer_instance
  · infer_instance

section Step

variable {env : ReportsEnv} {w : AuditWorld}

/-- A row that has not been sealed joins the table. -/
theorem AuditInvariant.inserted (h : AuditInvariant env w) {row : AuditRow} {n : Nat}
    (hrow : w.inserting[n]? = some row) {rows : Table AuditRow}
    (hinserted : w.rows.insert? row = some rows) :
    AuditInvariant env { w with rows, inserting := w.inserting.eraseIdx n } := by
  have hmem : row ∈ w.inserting := List.mem_of_getElem? hrow
  have hnone := h.fresh row hmem
  have hrows : rows.rows = w.rows.rows ++ [row] := (Table.insert?_eq_some.mp hinserted).2
  have hperm : (rows.rows.map AuditRow.seq ++
      (w.inserting.eraseIdx n).map AuditRow.seq).Perm
        (w.rows.rows.map AuditRow.seq ++ w.inserting.map AuditRow.seq) := by
    obtain ⟨hn, hget⟩ := List.getElem?_eq_some_iff.mp hrow
    have herase := List.getElem_cons_eraseIdx_perm hn
    rw [hget] at herase
    have hsplit : rows.rows.map AuditRow.seq ++ (w.inserting.eraseIdx n).map AuditRow.seq =
        w.rows.rows.map AuditRow.seq ++ (row :: w.inserting.eraseIdx n).map AuditRow.seq := by
      rw [hrows, List.map_append, List.append_assoc]
      rfl
    rw [hsplit]
    exact (herase.map AuditRow.seq).append_left _
  have hsame : ∀ tenantId, sealedRows rows tenantId = sealedRows w.rows tenantId := by
    intro tenantId
    have hopen : ¬isSealed tenantId row = true := by
      intro hsealed
      have hsome := (isSealed_iff.mp hsealed).2
      rw [hnone] at hsome
      cases hsome
    unfold sealedRows
    rw [hrows, List.filter_append, List.filter_cons_of_neg hopen, List.filter_nil,
      List.append_nil]
  have hkept : ∀ a, a ∈ w.rows → a ∈ rows := fun a ha =>
    (Table.mem_insert? hinserted).mpr (.inl ha)
  refine ⟨hperm.nodup_iff.mpr h.seqs, fun s hs => h.below s (hperm.mem_iff.mp hs),
    fun a ha => h.fresh a (List.mem_of_mem_eraseIdx ha), fun tenantId => ?_,
    fun call hcall => ?_, h.exclusive⟩
  · change Chained _ _ ((sealedRows rows tenantId).map _)
    rw [hsame]
    exact h.chained tenantId
  · exact (h.onTrack call hcall).of_same (hsame _) fun a _ ha => hkept a ha

theorem AuditInvariant.dropped (h : AuditInvariant env w) (n : Nat) :
    AuditInvariant env { w with inserting := w.inserting.eraseIdx n } := by
  have hsub : (w.rows.rows.map AuditRow.seq ++ (w.inserting.eraseIdx n).map AuditRow.seq).Sublist
      (w.rows.rows.map AuditRow.seq ++ w.inserting.map AuditRow.seq) :=
    ((List.eraseIdx_sublist ..).map AuditRow.seq).append_left _
  exact ⟨h.seqs.sublist hsub, fun s hs => h.below s (hsub.subset hs),
    fun a ha => h.fresh a (List.mem_of_mem_eraseIdx ha), h.chained, h.onTrack, h.exclusive⟩

theorem AuditInvariant.started (h : AuditInvariant env w) (entry : AuditRow) :
    AuditInvariant env { w with
      nextSeq := w.nextSeq + 1
      inserting :=
        w.inserting ++ [{ entry with seq := w.nextSeq, prevHash := none, hash := none }] } := by
  have hsplit : w.rows.rows.map AuditRow.seq ++ (w.inserting ++ [{ entry with
      seq := w.nextSeq, prevHash := none, hash := none }]).map AuditRow.seq =
        (w.rows.rows.map AuditRow.seq ++ w.inserting.map AuditRow.seq) ++ [w.nextSeq] := by
    rw [List.map_append, List.append_assoc]
    rfl
  refine ⟨?_, fun s hs => ?_, fun a ha => ?_, h.chained, h.onTrack, h.exclusive⟩
  · change (w.rows.rows.map AuditRow.seq ++ _).Nodup
    rw [hsplit, List.nodup_append]
    refine ⟨h.seqs, List.nodup_singleton _, fun s hs s' hs' => ?_⟩
    rw [List.mem_singleton.mp hs']
    exact Nat.ne_of_lt (h.below s hs)
  · change s ∈ w.rows.rows.map AuditRow.seq ++ _ at hs
    rw [hsplit] at hs
    change s < w.nextSeq + 1
    rcases List.mem_append.mp hs with hs | hs
    · have hlt := h.below s hs
      omega
    · have heq := List.mem_singleton.mp hs
      omega
  · rcases List.mem_append.mp ha with ha | ha
    · exact h.fresh a ha
    · rw [List.mem_singleton.mp ha]

/-- One call changes, and what it has left to write is in order. -/
theorem AuditInvariant.set_call (h : AuditInvariant env w) {n : Nat} {call : SealCall}
    (htrack : call.OnTrack w.rows)
    (halone : ∀ (m : Nat) (other : SealCall), m ≠ n → w.sealing[m]? = some other →
      call.tenantId = other.tenantId → call.left = [] ∨ other.left = []) :
    AuditInvariant env { w with sealing := w.sealing.set n call } := by
  refine ⟨h.seqs, h.below, h.fresh, h.chained, fun other hother => ?_, h.exclusive.set halone⟩
  rcases List.mem_or_eq_of_mem_set hother with hmem | heq
  · exact h.onTrack other hmem
  · rw [heq]
    exact htrack

theorem AuditInvariant.read (h : AuditInvariant env w) {n : Nat} {tenantId : Uuid}
    {prev : Option String} (horder : ReadsInOrder w n ⟨tenantId, prev, .headRead⟩) :
    AuditInvariant env { w with
      sealing := w.sealing.set n ⟨tenantId, prev, .writing (unsealedRows w.rows tenantId)⟩ } := by
  obtain ⟨hhead, halone, hafter⟩ := horder
  refine h.set_call ⟨fun _ => hhead, fun a ha => mem_unsealedRows.mp ha,
    unsealedRows_pairwise h.seqs_rows, hafter⟩ fun m other hm hother htenant => ?_
  right
  obtain ⟨hbound, hget⟩ := List.getElem?_eq_some_iff.mp hother
  have hempty := halone m hbound hm (by rw [hget]; exact htenant.symm)
  rw [hget] at hempty
  exact List.isEmpty_iff.mp hempty

theorem AuditInvariant.written (h : AuditInvariant env w) {n : Nat} {tenantId : Uuid}
    {prev : Option String} {a : AuditRow} {left : List AuditRow}
    (hcall : w.sealing[n]? = some ⟨tenantId, prev, .writing (a :: left)⟩) :
    AuditInvariant env (w.writeNext env n ⟨tenantId, prev, .writing (a :: left)⟩ a left) := by
  have htrack := h.onTrack _ (List.mem_of_getElem? hcall)
  have hseqs := h.seqs_rows
  obtain ⟨ha, hunsealed⟩ := htrack.unsealed a List.mem_cons_self
  have htenant : a.tenantId = some tenantId := (isUnsealed_iff.mp hunsealed).1
  have hothers : ∀ hash other, other ≠ tenantId →
      sealedRows (writtenRows w.rows a prev hash) other = sealedRows w.rows other := by
    intro hash other hother
    refine sealedRows_written_other hseqs ha fun hsame => hother ?_
    rw [htenant] at hsame
    exact (Option.some.inj hsame).symm
  change AuditInvariant env { w with
    rows := writtenRows w.rows a prev (chainHash env prev (auditContent env a))
    sealing := w.sealing.set n
      ⟨tenantId, some (chainHash env prev (auditContent env a)), .writing left⟩ }
  generalize hmade : chainHash env prev (auditContent env a) = hash
  refine ⟨?_, ?_, h.fresh, fun other => ?_, fun call hmem => ?_, h.exclusive.set fun m other hm
    hother hsame => ?_⟩
  · change ((writtenRows w.rows a prev hash).rows.map AuditRow.seq ++ _).Nodup
    rw [seqs_writtenRows]
    exact h.seqs
  · change ∀ s ∈ (writtenRows w.rows a prev hash).rows.map AuditRow.seq ++ _, _
    rw [seqs_writtenRows]
    exact h.below
  · change Chained _ _ ((sealedRows (writtenRows w.rows a prev hash) other).map _)
    by_cases hown : other = tenantId
    · have hhead : prev = headHash w.rows tenantId := htrack.head (List.cons_ne_nil a left)
      rw [hown, sealedRows_written hseqs ha hunsealed (htrack.after a List.mem_cons_self),
        List.map_append, List.map_singleton, chained_concat, ← headHash_eq, ← hhead]
      refine ⟨h.chained tenantId, rfl, ?_⟩
      change hash = chainHash env prev (auditContent env a)
      exact hmade.symm
    · rw [hothers hash other hown]
      exact h.chained other
  · obtain ⟨m, hm⟩ := List.mem_iff_getElem?.mp hmem
    change (w.sealing.set n _)[m]? = some call at hm
    rw [List.getElem?_set] at hm
    split_ifs at hm with hmn hbound
    · cases hm
      exact htrack.written hseqs
    · have hold := h.onTrack call (List.mem_of_getElem? hm)
      by_cases hown : call.tenantId = tenantId
      · refine SealCall.onTrack_of_nil ?_
        rcases h.exclusive m n call _ (fun heq => hmn heq.symm) hm hcall hown with hnil | hcons
        · exact hnil
        · cases hcons
      · refine hold.of_same (hothers hash _ hown) fun x hx hxrows => ?_
        refine (mem_writtenRows ha).mpr (.inl ⟨hxrows, fun hid => hown ?_⟩)
        have hsame : x = a := Table.eq_of_key hxrows ha hid
        have hx' := (isUnsealed_iff.mp (hold.unsealed x hx).2).1
        rw [hsame, htenant] at hx'
        exact (Option.some.inj hx').symm
  · -- the other calls of the tenant had nothing to write before either
    right
    rcases h.exclusive m n other _ hm hother hcall hsame.symm with hnil | hcons
    · exact hnil
    · cases hcons

theorem AuditInvariant.step (h : AuditInvariant env w) (step : AuditStep)
    (horder : step.InOrder w) : AuditInvariant env (step.apply env w) := by
  cases step with
  | startInsert entry => exact h.started entry
  | commitInsert n =>
      simp only [AuditStep.apply]
      split
      next row hrow =>
        cases hinserted : w.rows.insert? row with
        | none => exact h.dropped n
        | some rows => exact h.inserted hrow hinserted
      next => exact h
  | abortInsert n => exact h.dropped n
  | openSeal tenantId =>
      refine ⟨h.seqs, h.below, h.fresh, h.chained, fun call hcall => ?_, h.exclusive.concat rfl⟩
      rcases List.mem_append.mp hcall with hcall | hcall
      · exact h.onTrack call hcall
      · rw [List.mem_singleton.mp hcall]
        exact SealCall.onTrack_of_nil rfl
  | readUnsealed n =>
      simp only [AuditStep.InOrder] at horder
      simp only [AuditStep.apply]
      split
      next tenantId prev hcall =>
        rw [hcall] at horder
        exact h.read horder
      next => exact h
  | writeNext n =>
      simp only [AuditStep.apply]
      split
      next tenantId prev a left hcall => exact h.written hcall
      next => exact h
  | endSeal n =>
      simp only [AuditStep.apply]
      split
      next call hcall =>
        exact h.set_call (SealCall.onTrack_of_nil rfl) fun _ _ _ _ _ => .inl rfl
      next => exact h

end Step

/-! ## Late rows -/

/-- No audit rows yet. -/
structure AuditWorld.Initial (w : AuditWorld) : Prop where
  rows : w.rows = .empty
  inserting : w.inserting = []
  sealing : w.sealing = []

theorem AuditInvariant.initial {env : ReportsEnv} {w : AuditWorld} (h : w.Initial) :
    AuditInvariant env w := by
  obtain ⟨hrows, hinserting, hsealing⟩ := h
  constructor
  · rw [hrows, hinserting]
    exact List.nodup_nil
  · rw [hrows, hinserting]
    exact fun s hs => absurd hs List.not_mem_nil
  · rw [hinserting]
    exact fun a ha => absurd ha List.not_mem_nil
  · rw [hrows]
    exact fun _ => trivial
  · rw [hsealing]
    exact fun call hcall => absurd hcall List.not_mem_nil
  · rw [hsealing]
    intro n m call other _ hcall
    rw [List.getElem?_nil] at hcall
    cases hcall

namespace Demo

/-- Six hexadecimal digits for each character. -/
def hexText (text : String) : String :=
  String.ofList ('0' :: text.toList.flatMap fun c => fixedHex 6 c.toNat)

def env : ReportsEnv := ⟨hexText, fun t => String.ofList (Json.decimal t)⟩

def entry (id : Uuid) : AuditRow :=
  ⟨id, some 1, none, "sale.approve", "sale", none, .null, .null, none, 0, none, none, 0⟩

/-- Two rows are logged and sealed together. -/
def inTurn : List AuditStep :=
  [.startInsert (entry 100), .startInsert (entry 101), .commitInsert 1, .commitInsert 0,
    .openSeal 1, .readUnsealed 0, .writeNext 0, .writeNext 0, .endSeal 0]

end Demo

end Refearn.Reports

import Refearn.Webhooks.Dispatch
/-!
# How often a delivery is sent

As long as nothing comes between what a dispatch has read of a delivery and its update, the stored
count is that of the requests. Two dispatches that have read the same delivery both send it.
-/

namespace Refearn.Webhooks

open Support

variable {w : WebhookWorld} {i : Nat} {r after : Dispatch} {id : Uuid}

/-! ## Requests under way -/

/-- The requests under way, before and after one dispatch has moved on. -/
theorem underWay_set (h : w.runs[i]? = some r) (after : Dispatch) (id : Uuid) :
    (w.runs.set i after).countP (Dispatch.isSending id) + (r.isSending id).toNat =
      w.underWay id + (after.isSending id).toNat := by
  obtain ⟨hlt, hget⟩ := List.getElem?_eq_some_iff.mp h
  have hset := List.countP_set (p := Dispatch.isSending id) (a := after) hlt
  have hpos : r.isSending id = true → 0 < w.underWay id := fun hsending =>
    List.countP_pos_iff.mpr ⟨r, List.mem_of_getElem? h, hsending⟩
  rw [hget] at hset
  rw [hset]
  unfold WebhookWorld.underWay at *
  cases hbefore : r.isSending id with
  | false => cases after.isSending id <;> simp
  | true =>
      have hone := hpos hbefore
      cases after.isSending id <;> simp <;> omega

theorem isSending_eq_true {id : Uuid} :
    r.isSending id = true ↔ ∃ d refusal, r.current = some (d, refusal) ∧ d.id = id := by
  unfold Dispatch.isSending
  cases hcurrent : r.current with
  | none => simp
  | some c => simp [Prod.ext_iff]

theorem isSending_of_none (h : r.current = none) (id : Uuid) : r.isSending id = false := by
  rw [Dispatch.isSending, h]
  rfl

theorem isSending_of_some {d : WebhookDelivery} {refusal : Option String}
    (h : r.current = some (d, refusal)) (id : Uuid) : r.isSending id = decide (d.id = id) := by
  rw [Dispatch.isSending, h]
  rfl

theorem counted_current (response : Response) (r : Dispatch) :
    (r.counted response).current = none ∧ (r.counted response).due = r.due := by
  unfold Dispatch.counted
  split
  · split_ifs <;> exact ⟨rfl, rfl⟩
  · exact ⟨rfl, rfl⟩

/-! ## The invariant -/

/-- The counts fit, and a delivery that is being sent is stored as its dispatch has read it. -/
structure Sound (w : WebhookWorld) : Prop where
  outside (id : Uuid) (h : ∀ d ∈ w.deliveries, d.id ≠ id) : w.sent id = 0 ∧ w.underWay id = 0
  counted (d : WebhookDelivery) (h : d ∈ w.deliveries) :
    w.sent d.id = d.attempts + w.underWay d.id
  bounded (d : WebhookDelivery) (h : d ∈ w.deliveries) : d.attempts ≤ MAX_ATTEMPTS
  alone (id : Uuid) : w.underWay id ≤ 1
  read (r : Dispatch) (hr : r ∈ w.runs) (d : WebhookDelivery) (hd : d ∈ r.due) :
    d.attempts < MAX_ATTEMPTS
  current (r : Dispatch) (hr : r ∈ w.runs) (d : WebhookDelivery) (refusal : Option String)
    (h : r.current = some (d, refusal)) :
    refusal = none ∧ ∃ row ∈ w.deliveries, row.id = d.id ∧ row.status ≠ .delivered ∧
      row.attempts = d.attempts ∧ d.attempts < MAX_ATTEMPTS

/-- The delivery under way, stored as it was read. -/
theorem Sound.exists_row (hw : Sound w) (h : 0 < w.underWay id) :
    ∃ row ∈ w.deliveries, row.id = id ∧ row.status ≠ .delivered ∧
      row.attempts < MAX_ATTEMPTS := by
  obtain ⟨r, hr, hsending⟩ := List.countP_pos_iff.mp h
  obtain ⟨d, refusal, hcurrent, rfl⟩ := isSending_eq_true.mp hsending
  obtain ⟨-, row, hrow, hid, hstatus, heq, hlt⟩ := hw.current r hr d refusal hcurrent
  exact ⟨row, hrow, hid, hstatus, heq ▸ hlt⟩

theorem Sound.protocol (hw : Sound w) : DeliveryProtocol w where
  counted := hw.counted
  atMostFive id := by
    by_cases hmem : ∃ d ∈ w.deliveries, d.id = id
    · obtain ⟨d, hd, rfl⟩ := hmem
      have hcount := hw.counted d hd
      have hbound := hw.bounded d hd
      have halone := hw.alone d.id
      rcases Nat.eq_zero_or_pos (w.underWay d.id) with hzero | hpos
      · omega
      · obtain ⟨row, hrow, hid, -, hlt⟩ := hw.exists_row hpos
        rw [Table.eq_of_key hrow hd hid] at hlt
        omega
    · push Not at hmem
      rw [(hw.outside id hmem).1]
      exact Nat.zero_le _

/-- Nothing under way for a delivery that has been delivered. -/
theorem Sound.underWay_eq_zero (hw : Sound w) {d : WebhookDelivery} (hd : d ∈ w.deliveries)
    (hstatus : d.status = .delivered) : w.underWay d.id = 0 := by
  by_contra hne
  obtain ⟨row, hrow, hid, hrowStatus, -⟩ := hw.exists_row (Nat.pos_of_ne_zero hne)
  rw [Table.eq_of_key hrow hd hid] at hrowStatus
  exact hrowStatus hstatus

/-! ## Steps -/

theorem mem_updateKey {deliveries : Table WebhookDelivery} {f : WebhookDelivery → WebhookDelivery}
    (hf : KeepsIndexes f) {d : WebhookDelivery} :
    d ∈ deliveries.updateKey id f hf ↔
      ∃ row ∈ deliveries, (if row.id = id then f row else row) = d := by
  rw [Table.mem_def, Table.rows_updateKey, List.mem_map]
  exact Iff.rfl

theorem mem_updateKey_of_ne {deliveries : Table WebhookDelivery}
    {f : WebhookDelivery → WebhookDelivery} (hf : KeepsIndexes f) {row : WebhookDelivery}
    (hrow : row ∈ deliveries) (hne : row.id ≠ id) : row ∈ deliveries.updateKey id f hf :=
  (mem_updateKey hf).mpr ⟨row, hrow, if_neg hne⟩

theorem Sound.emit (hw : Sound w) {d : WebhookDelivery} {deliveries : Table WebhookDelivery}
    (h : w.deliveries.insert? d = some deliveries) (hnew : d.attempts = 0) :
    Sound { w with deliveries } := by
  have hfresh : ∀ row ∈ w.deliveries, row.id ≠ d.id := fun row hrow =>
    ((Table.insert?_eq_some.mp h).1 row hrow).1
  obtain ⟨hsent, hunder⟩ := hw.outside d.id hfresh
  refine ⟨fun id hid => hw.outside id fun row hrow => hid row ((Table.mem_insert? h).mpr (.inl hrow)),
    fun row hrow => ?_, fun row hrow => ?_, hw.alone, hw.read, fun r hr c refusal hc => ?_⟩
  · rcases (Table.mem_insert? h).mp hrow with hold | rfl
    · exact hw.counted row hold
    · exact hsent.trans (by rw [hnew, Nat.zero_add]; exact hunder.symm)
  · rcases (Table.mem_insert? h).mp hrow with hold | rfl
    · exact hw.bounded row hold
    · rw [hnew]
      exact Nat.zero_le _
  · obtain ⟨hrefusal, row, hrow, hrest⟩ := hw.current r hr c refusal hc
    exact ⟨hrefusal, row, (Table.mem_insert? h).mpr (.inl hrow), hrest⟩

theorem Sound.replay (hw : Sound w) (hidle : w.underWay id = 0) :
    Sound ((WebhookStep.replay id).apply w) := by
  have hstep : (WebhookStep.replay id).apply w =
      { w with
        deliveries := w.deliveries.updateKey id WebhookDelivery.replayed replayed_keepsIndexes
        sent := Function.update w.sent id 0 } := rfl
  rw [hstep]
  refine ⟨fun id' hid' => ?_, fun d hd => ?_, fun d hd => ?_, hw.alone, hw.read,
    fun r hr c refusal hc => ?_⟩
  · have hout := hw.outside id' fun row hrow heq => by
      have hmem : (if row.id = id then row.replayed else row) ∈
          w.deliveries.updateKey id WebhookDelivery.replayed replayed_keepsIndexes :=
        (mem_updateKey replayed_keepsIndexes).mpr ⟨row, hrow, rfl⟩
      refine hid' _ hmem ?_
      split_ifs <;> exact heq
    refine ⟨?_, hout.2⟩
    change Function.update w.sent id 0 id' = 0
    rw [Function.update_apply]
    split_ifs
    · rfl
    · exact hout.1
  · obtain ⟨row, hrow, rfl⟩ := (mem_updateKey replayed_keepsIndexes).mp hd
    split_ifs with hid
    · have hsame : row.replayed.id = id := hid
      change Function.update w.sent id 0 row.replayed.id = 0 + w.underWay row.replayed.id
      rw [hsame, Function.update_self, hidle]
    · change Function.update w.sent id 0 row.id = _
      rw [Function.update_of_ne hid]
      exact hw.counted row hrow
  · obtain ⟨row, hrow, rfl⟩ := (mem_updateKey replayed_keepsIndexes).mp hd
    split_ifs
    · exact Nat.zero_le _
    · exact hw.bounded row hrow
  · obtain ⟨hrefusal, row, hrow, hid, hrest⟩ := hw.current r hr c refusal hc
    refine ⟨hrefusal, row, mem_updateKey_of_ne replayed_keepsIndexes hrow fun heq => ?_, hid,
      hrest⟩
    -- this delivery is under way
    have hpos : 0 < w.underWay id :=
      List.countP_pos_iff.mpr ⟨r, hr, isSending_eq_true.mpr ⟨c, refusal, hc, hid ▸ heq⟩⟩
    omega

theorem Sound.begin (hw : Sound w) {order : List WebhookDelivery}
    (horder : isDueOrder w.deliveries order) : Sound { w with runs := w.runs ++ [.begin order] } := by
  have hunder (id : Uuid) :
      (w.runs ++ [Dispatch.begin order]).countP (Dispatch.isSending id) = w.underWay id := by
    rw [List.countP_append]
    rfl
  refine ⟨fun id hid => ?_, fun d hd => ?_, hw.bounded, fun id => ?_, fun r hr d hd => ?_,
    fun r hr d refusal hd => ?_⟩
  · exact ⟨(hw.outside id hid).1, (hunder id).trans (hw.outside id hid).2⟩
  · exact (hw.counted d hd).trans (congrArg _ (hunder d.id).symm)
  · exact (hunder id).le.trans (hw.alone id)
  · rcases List.mem_append.mp hr with hold | hnew
    · exact hw.read r hold d hd
    · rw [List.mem_singleton.mp hnew] at hd
      have hdue := (List.mem_filter.mp (horder.1.mem_iff.mp (List.mem_of_mem_take hd))).2
      exact of_decide_eq_true (Bool.and_eq_true_iff.mp hdue).2
  · rcases List.mem_append.mp hr with hold | hnew
    · exact hw.current r hold d refusal hd
    · rw [List.mem_singleton.mp hnew] at hd
      cases hd

/-- What a dispatch sends next is still as it was read, and nobody else sends it. -/
theorem Sound.send (hw : Sound w) {d : WebhookDelivery} {due : List WebhookDelivery}
    {delivered failed : Nat} (hget : w.runs[i]? = some ⟨none, d :: due, delivered, failed⟩)
    (hidle : w.underWay d.id = 0) {row : WebhookDelivery} (hrow : row ∈ w.deliveries)
    (hid : row.id = d.id) (hstatus : row.status ≠ .delivered)
    (hattempts : row.attempts = d.attempts) :
    Sound { w with
      runs := w.runs.set i ⟨some (d, none), due, delivered, failed⟩
      sent := Function.update w.sent d.id (w.sent d.id + 1) } := by
  have hread := hw.read _ (List.mem_of_getElem? hget)
  -- one more under way for this delivery, and for no other
  have hunder (id : Uuid) : (w.runs.set i ⟨some (d, none), due, delivered, failed⟩).countP
      (Dispatch.isSending id) = w.underWay id + (decide (d.id = id)).toNat := by
    have hset := underWay_set hget ⟨some (d, none), due, delivered, failed⟩ id
    rw [isSending_of_none rfl, isSending_of_some rfl] at hset
    exact hset
  refine ⟨fun id hout => ?_, fun d' hd' => ?_, hw.bounded, fun id => ?_, fun r hr d' hd' => ?_,
    fun r hr d' refusal hc => ?_⟩
  · have hne : d.id ≠ id := fun heq => hout row hrow (hid.trans heq)
    obtain ⟨hsent, hzero⟩ := hw.outside id hout
    refine ⟨(Function.update_of_ne (Ne.symm hne) _ _).trans hsent, (hunder id).trans ?_⟩
    rw [hzero, decide_eq_false hne]
    rfl
  · refine Eq.trans ?_ (congrArg (d'.attempts + ·) (hunder d'.id).symm)
    change Function.update w.sent d.id (w.sent d.id + 1) d'.id = _
    by_cases heq : d.id = d'.id
    · have hcount := hw.counted d' hd'
      rw [← heq, Function.update_self, decide_eq_true rfl, heq, hcount]
      rfl
    · rw [Function.update_of_ne (Ne.symm heq), decide_eq_false heq]
      exact hw.counted d' hd'
  · change (w.runs.set i _).countP _ ≤ 1
    rw [hunder]
    by_cases heq : d.id = id
    · rw [decide_eq_true heq, ← heq, hidle]
      exact Nat.le_refl 1
    · rw [decide_eq_false heq]
      exact hw.alone id
  · rcases List.mem_or_eq_of_mem_set hr with hold | rfl
    · exact hw.read r hold d' hd'
    · exact hread d' (List.mem_cons_of_mem _ hd')
  · rcases List.mem_or_eq_of_mem_set hr with hold | rfl
    · exact hw.current r hold d' refusal hc
    · obtain ⟨rfl, rfl⟩ := Prod.mk.inj (Option.some.inj hc)
      exact ⟨rfl, row, hrow, hid, hstatus, hattempts, hread d List.mem_cons_self⟩

/-- The one dispatch that sends a delivery stores its count. -/
theorem Sound.store (hw : Sound w) {d : WebhookDelivery} (hget : w.runs[i]? = some r)
    (hcurrent : r.current = some (d, none)) (response : Response) :
    Sound { w with
      deliveries :=
        w.deliveries.updateKey d.id (settle d response) (settle_keepsIndexes d response)
      runs := w.runs.set i (r.counted response) } := by
  have hr := List.mem_of_getElem? hget
  obtain ⟨-, row, hrow, hid, -, hattempts, hlt⟩ := hw.current r hr d none hcurrent
  obtain ⟨hnone, hdue⟩ := counted_current response r
  have hunder (id : Uuid) : (w.runs.set i (r.counted response)).countP (Dispatch.isSending id) +
      (decide (d.id = id)).toNat = w.underWay id := by
    have hset := underWay_set hget (r.counted response) id
    rw [isSending_of_none hnone, isSending_of_some hcurrent] at hset
    exact hset
  -- nobody else sends it any more
  have hidle : (w.runs.set i (r.counted response)).countP (Dispatch.isSending d.id) = 0 := by
    have hset := hunder d.id
    rw [decide_eq_true rfl] at hset
    have halone := hw.alone d.id
    change _ + 1 = _ at hset
    omega
  have hother : ∀ {id : Uuid}, d.id ≠ id →
      (w.runs.set i (r.counted response)).countP (Dispatch.isSending id) = w.underWay id := by
    intro id hne
    have hset := hunder id
    rw [decide_eq_false hne] at hset
    exact hset
  refine ⟨fun id hout => ?_, fun d' hd' => ?_, fun d' hd' => ?_, fun id => ?_,
    fun r' hr' d' hd' => ?_, fun r' hr' d' refusal hc => ?_⟩
  · have hout' : ∀ row ∈ w.deliveries, row.id ≠ id := fun row hrow heq => by
      have hmem : (if row.id = d.id then settle d response row else row) ∈
          w.deliveries.updateKey d.id (settle d response) (settle_keepsIndexes d response) :=
        (mem_updateKey (settle_keepsIndexes d response)).mpr ⟨row, hrow, rfl⟩
      refine hout _ hmem ?_
      split_ifs
      · exact (settle_id d response row).trans heq
      · exact heq
    have hne : d.id ≠ id := fun heq => hout' row hrow (hid.trans heq)
    exact ⟨(hw.outside id hout').1, (hother hne).trans (hw.outside id hout').2⟩
  · obtain ⟨row', hrow', rfl⟩ := (mem_updateKey (settle_keepsIndexes d response)).mp hd'
    change w.sent _ = _ + (w.runs.set i (r.counted response)).countP (Dispatch.isSending _)
    split_ifs with heq
    · have hsame : row' = row := Table.eq_of_key hrow' hrow (heq.trans hid.symm)
      have hone : w.underWay d.id = 1 := by
        have hset := hunder d.id
        rw [hidle, decide_eq_true rfl] at hset
        exact hset.symm
      have hcount := hw.counted row' hrow'
      rw [heq, hone, hsame, hattempts] at hcount
      rw [settle_id, settle_attempts, heq, hidle]
      exact hcount
    · rw [hother (Ne.symm heq)]
      exact hw.counted row' hrow'
  · obtain ⟨row', hrow', rfl⟩ := (mem_updateKey (settle_keepsIndexes d response)).mp hd'
    split_ifs
    · rw [settle_attempts]
      exact hlt
    · exact hw.bounded row' hrow'
  · have hset := hunder id
    have halone := hw.alone id
    change (w.runs.set i (r.counted response)).countP (Dispatch.isSending id) ≤ 1
    omega
  · rcases List.mem_or_eq_of_mem_set hr' with hold | rfl
    · exact hw.read r' hold d' hd'
    · rw [hdue] at hd'
      exact hw.read r hr d' hd'
  · rcases List.mem_or_eq_of_mem_set hr' with hold | rfl
    · obtain ⟨hrefusal, row', hrow', hid', hrest⟩ := hw.current r' hold d' refusal hc
      refine ⟨hrefusal, row', mem_updateKey_of_ne (settle_keepsIndexes d response) hrow' fun heq => ?_,
        hid', hrest⟩
      have hpos : 0 < (w.runs.set i (r.counted response)).countP (Dispatch.isSending d.id) :=
        List.countP_pos_iff.mpr
          ⟨r', hr', isSending_eq_true.mpr ⟨d', refusal, hc, hid' ▸ heq⟩⟩
      omega
    · rw [hnone] at hc
      cases hc

theorem Sound.abort (hw : Sound w) (hget : w.runs[i]? = some r) (hnone : r.current = none) :
    Sound { w with runs := w.runs.set i { r with current := none, due := [] } } := by
  have hunder (id : Uuid) : (w.runs.set i { r with current := none, due := [] }).countP
      (Dispatch.isSending id) = w.underWay id := by
    have hset := underWay_set hget { r with current := none, due := [] } id
    rw [isSending_of_none hnone, isSending_of_none rfl] at hset
    exact hset
  refine ⟨fun id hout => ?_, fun d hd => ?_, hw.bounded, fun id => ?_, fun r' hr' d hd => ?_,
    fun r' hr' d refusal hc => ?_⟩
  · exact (hw.outside id hout).imp_right (hunder id).trans
  · exact (hw.counted d hd).trans (congrArg _ (hunder d.id).symm)
  · exact (hunder id).le.trans (hw.alone id)
  · rcases List.mem_or_eq_of_mem_set hr' with hold | rfl
    · exact hw.read r' hold d hd
    · cases hd
  · rcases List.mem_or_eq_of_mem_set hr' with hold | rfl
    · exact hw.current r' hold d refusal hc
    · cases hc

/-! ## Runs -/

theorem StaysDelivered.refl (id : Uuid) (w : WebhookWorld) : StaysDelivered id w w :=
  fun d hd hid hstatus => ⟨rfl, d, hd, hid, hstatus⟩

theorem StaysDelivered.trans {w' w'' : WebhookWorld} (h : StaysDelivered id w w')
    (h' : StaysDelivered id w' w'') : StaysDelivered id w w'' := by
  intro d hd hid hstatus
  obtain ⟨hsent, d', hd', hid', hstatus'⟩ := h d hd hid hstatus
  obtain ⟨hsent', hrest⟩ := h' d' hd' hid' hstatus'
  exact ⟨hsent'.trans hsent, hrest⟩

/-- An update of another delivery. -/
theorem staysDelivered_updateKey {other : Uuid} {f : WebhookDelivery → WebhookDelivery}
    {hf : KeepsIndexes f} {runs : List Dispatch} {sent : Uuid → Nat}
    (hne : ∀ d ∈ w.deliveries, d.id = id → d.status = .delivered → other ≠ id)
    (hsent : other ≠ id → sent id = w.sent id) :
    StaysDelivered id w ⟨w.deliveries.updateKey other f hf, runs, sent⟩ := by
  intro d hd hid hstatus
  have hother := hne d hd hid hstatus
  refine ⟨hsent hother, d, mem_updateKey_of_ne hf hd fun heq => ?_, hid, hstatus⟩
  exact hother (heq.symm.trans hid)

theorem step_kept (step : WebhookStep) (w : WebhookWorld) (h : Undisturbed step w)
    (hw : Sound w) : Sound (step.apply w) ∧
      (step ≠ .replay id → StaysDelivered id w (step.apply w)) := by
  cases step with
  | emit newId endpointId event now =>
      simp only [WebhookStep.apply]
      split
      · next hinsert =>
          refine ⟨hw.emit hinsert rfl, fun _ d hd hid hstatus => ⟨rfl, d, ?_, hid, hstatus⟩⟩
          exact (Table.mem_insert? hinsert).mpr (.inl hd)
      · exact ⟨hw, fun _ => .refl id w⟩
  | replay other =>
      refine ⟨hw.replay h, fun hreplay => staysDelivered_updateKey (fun _ _ _ _ heq => ?_)
        fun hne => Function.update_of_ne (Ne.symm hne) _ _⟩
      exact hreplay (congrArg WebhookStep.replay heq)
  | begin order =>
      simp only [WebhookStep.apply]
      split_ifs with horder
      · exact ⟨hw.begin horder, fun _ d hd hid hstatus => ⟨rfl, d, hd, hid, hstatus⟩⟩
      · exact ⟨hw, fun _ => .refl id w⟩
  | send i refusal =>
      simp only [WebhookStep.apply]
      split
      · next d due delivered failed hget =>
          obtain ⟨rfl, hidle, row, hrow, hid, hstatus, hattempts⟩ := h _ d due hget rfl rfl
          refine ⟨hw.send hget hidle hrow hid hstatus hattempts, fun _ d' hd' hid' hstatus' => ?_⟩
          refine ⟨Function.update_of_ne (fun heq => ?_) _ _, d', hd', hid', hstatus'⟩
          have hsame : row = d' := Table.eq_of_key hrow hd' (hid.trans (heq.symm.trans hid'.symm))
          exact hstatus (hsame ▸ hstatus')
      · exact ⟨hw, fun _ => .refl id w⟩
  | store i response =>
      simp only [WebhookStep.apply]
      split
      · next r hget =>
          split
          · next d refusal hcurrent =>
              obtain ⟨rfl, row, hrow, hid, hstatus, -⟩ :=
                hw.current r (List.mem_of_getElem? hget) d refusal hcurrent
              refine ⟨hw.store hget hcurrent response, fun _ =>
                staysDelivered_updateKey (fun d' hd' hid' hstatus' heq => ?_) fun _ => rfl⟩
              have hsame : row = d' := Table.eq_of_key hrow hd' (hid.trans (heq.trans hid'.symm))
              exact hstatus (hsame ▸ hstatus')
          · exact ⟨hw, fun _ => .refl id w⟩
      · exact ⟨hw, fun _ => .refl id w⟩
  | abort i =>
      simp only [WebhookStep.apply]
      split
      · next r hget =>
          exact ⟨hw.abort hget (h r hget), fun _ d hd hid hstatus => ⟨rfl, d, hd, hid, hstatus⟩⟩
      · exact ⟨hw, fun _ => .refl id w⟩

/-- In every run in which nothing comes between what a dispatch has read of a delivery and its
update, a delivery is sent at most five times between two replays, its stored count is that of the
requests, and once delivered it is left alone until it is replayed. -/
theorem deliveries_protocol (w : WebhookWorld) (hruns : w.runs = [])
    (hsent : ∀ id, w.sent id = 0) (hnew : ∀ d ∈ w.deliveries, d.attempts = 0)
    (steps : List WebhookStep)
    (hsteps : Throughout WebhookStep.apply Undisturbed steps w) :
    DeliveryProtocol (run WebhookStep.apply steps w) ∧
      ∀ before after, steps = before ++ after → ∀ id, WebhookStep.replay id ∉ after →
        StaysDelivered id (run WebhookStep.apply before w) (run WebhookStep.apply steps w) := by
  have hidle (id : Uuid) : w.underWay id = 0 := by
    rw [WebhookWorld.underWay, hruns]
    rfl
  have hinit : Sound w := by
    refine ⟨fun id _ => ⟨hsent id, hidle id⟩, fun d hd => ?_, fun d hd => ?_,
      fun id => (hidle id).le.trans (Nat.zero_le 1), fun r hr => ?_, fun r hr => ?_⟩
    · rw [hsent, hnew d hd, hidle]
    · rw [hnew d hd]
      exact Nat.zero_le _
    · rw [hruns] at hr
      cases hr
    · rw [hruns] at hr
      cases hr
  have hstep : ∀ step w, Undisturbed step w → Sound w → Sound (step.apply w) :=
    fun step w h hw => (@step_kept 0 step w h hw).1
  refine ⟨(hsteps.invariant hstep hinit).protocol, ?_⟩
  rintro before after rfl id hreplay
  rw [run_append]
  have hbefore := hsteps.left.invariant hstep hinit
  have hafter := hsteps.right
  clear hsteps
  generalize run WebhookStep.apply before w = v at hbefore hafter
  induction after generalizing v with
  | nil => exact .refl id v
  | cons step after ih =>
      rw [List.mem_cons, not_or] at hreplay
      obtain ⟨hv, hstays⟩ := @step_kept id step v hafter.1 hbefore
      exact (hstays fun heq => hreplay.1 heq.symm).trans (ih hreplay.2 _ hv hafter.2)

namespace Demo

def delivery : WebhookDelivery := newDelivery 7 1 "sale.approved" 0

def world : WebhookWorld := ⟨⟨[delivery], by decide, by decide⟩, [], fun _ => 0⟩

/-- One dispatch sends the delivery. -/
def alone : List WebhookStep := [.begin [delivery], .send 0 none, .store 0 (.answered 200)]

/-- Another one has read it before it was stored as delivered. -/
def overlapping : List WebhookStep :=
  [.begin [delivery], .send 0 none, .begin [delivery], .store 0 (.answered 200)]

end Demo

theorem deliveries_protocol_alone :
    DeliveryProtocol (run WebhookStep.apply Demo.alone Demo.world) ∧
      ∀ before after, Demo.alone = before ++ after → ∀ id, WebhookStep.replay id ∉ after →
        StaysDelivered id (run WebhookStep.apply before Demo.world)
          (run WebhookStep.apply Demo.alone Demo.world) := by
  refine deliveries_protocol Demo.world rfl (fun _ => rfl) (by decide) Demo.alone
    ⟨trivial, ?_, trivial, trivial⟩
  intro r d due hget _ hdue
  obtain rfl := Option.some.inj hget
  obtain ⟨rfl, rfl⟩ := List.cons.inj hdue
  exact ⟨rfl, rfl, Demo.delivery, List.mem_singleton_self _, rfl, nofun, rfl⟩

/-- The second dispatch sends the delivery again. -/
theorem not_staysDelivered :
    ¬∀ (w : WebhookWorld), w.runs = [] → (∀ id, w.sent id = 0) →
      (∀ d ∈ w.deliveries, d.attempts = 0) → ∀ before after : List WebhookStep,
        ∀ id, WebhookStep.replay id ∉ after →
          StaysDelivered id (run WebhookStep.apply before w)
            (run WebhookStep.apply (before ++ after) w) := by
  intro h
  have hstays := h Demo.world rfl (fun _ => rfl) (by decide) Demo.overlapping [.send 1 none] 7
    (by decide)
  have hdelivered : ∃ d ∈ (run WebhookStep.apply Demo.overlapping Demo.world).deliveries,
      d.id = 7 ∧ d.status = .delivered := by
    decide
  obtain ⟨d, hd, hid, hstatus⟩ := hdelivered
  have hsent := (hstays d hd hid hstatus).1
  exact absurd hsent (by decide)

end Refearn.Webhooks

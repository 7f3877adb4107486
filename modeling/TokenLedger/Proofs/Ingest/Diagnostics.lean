/-
# Diagnostics shown

The diagnostics of a refused transaction are stored as a text and shown as the object that the text
stands for. An object that is text throughout is shown as it was written
(`Service.shownDiagnostics_of_plain`), and whatever is shown is text throughout
(`Service.readable_of_shown`). So the diagnostics are shown as they are exactly if the tags of all
events are text (`Service.shownDiagnostics_iff`).

Key definitions: `Transaction.tags`, `ErrorRecord.Documents`.
Key theorems: `Json.readable_merged`, `Transaction.plain_diagnostics`, `Service.readable_of_shown`,
`Service.shownDiagnostics_iff`.
-/
import TokenLedger.Proofs.Json.RoundTrip
import TokenLedger.Proofs.Ingest.Effect
import TokenLedger.Service.Respond

namespace TokenLedger

/-! ### Values that are text -/

namespace Json

theorem readableMembers_iff {ms : Members} :
    readableMembers ms = true ↔ ∀ m ∈ ms, m.1.readable = true ∧ m.2.readable = true := by
  induction ms with
  | nil => simp [readableMembers]
  | cons m ms ih => rw [readableMembers, Bool.and_eq_true, Bool.and_eq_true, ih, List.forall_mem_cons]

theorem readableItems_iff {vs : List Json} :
    readableItems vs = true ↔ ∀ v ∈ vs, v.readable = true := by
  induction vs with
  | nil => simp [readableItems]
  | cons v vs ih => rw [readableItems, Bool.and_eq_true, ih, List.forall_mem_cons]

theorem heightOfItems_le {vs : List Json} {n : ℕ} (h : ∀ v ∈ vs, v.height ≤ n) :
    heightOfItems vs ≤ n := by
  induction vs with
  | nil => exact Nat.zero_le n
  | cons v vs ih =>
    obtain ⟨hv, hvs⟩ := List.forall_mem_cons.mp h
    exact max_le hv (ih hvs)

theorem height_le_of_mem {ms : Members} {m : RawText × Json} (h : m ∈ ms) :
    m.2.height ≤ heightOfMembers ms := by
  induction ms with
  | nil => cases h
  | cons m' ms ih =>
    rw [heightOfMembers]
    rcases List.mem_cons.mp h with rfl | h
    · exact le_max_left _ _
    · exact (ih h).trans (le_max_right _ _)

theorem readableMembers_put {ms : Members} {name : RawText} {v : Json}
    (hms : readableMembers ms = true) (hname : name.readable = true) (hv : v.readable = true) :
    readableMembers (put ms name v) = true := by
  induction ms with
  | nil => simp [put, readableMembers, hname, hv]
  | cons m ms ih =>
    rw [readableMembers, Bool.and_eq_true, Bool.and_eq_true] at hms
    obtain ⟨⟨hk, hw⟩, hms⟩ := hms
    rw [put]
    split
    · simp [readableMembers, hk, hv, hms]
    · simp [readableMembers, hk, hw, ih hms]

mutual

/-- Leaving each name once keeps a value text. -/
theorem readable_merged : ∀ v : Json, v.readable = true → v.merged.readable = true
  | .null, _ => rfl
  | .bool _, _ => rfl
  | .whole _, _ => rfl
  | .float _, _ => rfl
  | .str _, h => h
  | .arr vs, h => readableItems_merged vs h
  | .obj ms, h => readableMembers_merged ms [] h rfl

theorem readableItems_merged : ∀ vs : List Json, readableItems vs = true →
    readableItems (mergedItems vs) = true
  | [], _ => rfl
  | v :: vs, h => by
    rw [readableItems, Bool.and_eq_true] at h
    rw [mergedItems, readableItems, readable_merged v h.1, readableItems_merged vs h.2]
    rfl

theorem readableMembers_merged : ∀ ms done : Members, readableMembers ms = true →
    readableMembers done = true → readableMembers (mergedMembers ms done) = true
  | [], _, _, hdone => hdone
  | (k, v) :: ms, done, h, hdone => by
    rw [readableMembers, Bool.and_eq_true, Bool.and_eq_true] at h
    rw [mergedMembers]
    exact readableMembers_merged ms _ h.2 (readableMembers_put hdone h.1.1 (readable_merged v h.1.2))

end

end Json

/-! ### Diagnostics of a transaction -/

namespace Transaction

variable {t : Transaction}

/-- The tags of the events of a transaction. -/
def tags (t : Transaction) : List RawText :=
  (t.events.getD []).map RawEvent.tag

/-- The diagnostics are text exactly if the tags are. -/
theorem readable_diagnostics (t : Transaction) :
    t.diagnostics.readable = true ↔ ∀ tag ∈ t.tags, tag.readable = true := by
  unfold diagnostics tags
  cases t.events with
  | none => simp [Json.readable, Json.readableMembers, RawText.readable]
  | some es =>
    simp [Json.readable, Json.readableMembers, RawText.readable, Json.readableItems_iff]

/-- Diagnostics that are text read as they are written. -/
theorem plain_diagnostics (hversion : Whole.fits t.version = true)
    (htags : ∀ tag ∈ t.tags, tag.readable = true) : t.diagnostics.plain = true := by
  have hlength : Text.digitCount t.version ≤ Whole.maxLength := Whole.digitCount_of_fits hversion
  unfold diagnostics
  unfold tags at htags
  cases hevents : t.events with
  | none =>
    simp [Json.plain, Json.plainMembers, RawText.readable, hlength]
  | some es =>
    rw [hevents] at htags
    have hitems : Json.plainItems (es.map fun e => Json.str e.tag) = true := by
      rw [Json.plainItems_iff]
      intro v hv
      obtain ⟨e, he, rfl⟩ := List.mem_map.mp hv
      exact htags e.tag (List.mem_map_of_mem he)
    simp [Json.plain, Json.plainMembers, RawText.readable, hlength, hitems]

theorem height_diagnostics (t : Transaction) : t.diagnostics.height ≤ 3 := by
  unfold diagnostics
  cases t.events with
  | none => simp [Json.height, Json.heightOfMembers]
  | some es =>
    have hitems : Json.heightOfItems (es.map fun e => Json.str e.tag) ≤ 1 := by
      refine Json.heightOfItems_le fun v hv => ?_
      obtain ⟨e, -, rfl⟩ := List.mem_map.mp hv
      exact le_rfl
    simp [Json.height, Json.heightOfMembers]
    omega

end Transaction

/-- A record documents the refusal of a transaction whose version fits the store. -/
def ErrorRecord.Documents (e : ErrorRecord) (t : Transaction) : Prop :=
  Whole.fits t.version = true ∧
    ∃ r time, t.activities = .error (.refused r) ∧ e = r.record t time

/-! ### What is shown -/

namespace Service

variable {ms : Json.Members} {e : ErrorRecord} {t : Transaction} {v : Json}

/-- Shown members are text, their names included. -/
theorem readable_of_shownMembers (h : shownMembers ms = some v) : v.readable = true := by
  unfold shownMembers at h
  simp only at h
  split at h
  · rename_i hall
    cases h
    refine Json.readableMembers_merged _ [] (Json.readableMembers_iff.mpr fun m hm => ?_) rfl
    obtain ⟨m', hm', rfl⟩ := List.mem_map.mp hm
    have hvalue := List.all_eq_true.mp hall m' hm'
    rw [Bool.and_eq_true] at hvalue
    exact ⟨rfl, hvalue.1⟩
  · cases h

/-- **Whatever is shown is text.** -/
theorem readable_of_shown (h : shownDiagnostics e = some v) : v.readable = true := by
  unfold shownDiagnostics at h
  split at h
  · cases h
    rfl
  · split at h
    · cases h
      rfl
    · split at h
      · cases h
        rfl
      · cases h
        rfl
      · exact readable_of_shownMembers h
      · cases h

/-- Members that are text and read as they are written are shown as they are. -/
theorem shownMembers_of_plain (hplain : (Json.obj ms).plain = true)
    (hreadable : (Json.obj ms).readable = true) (hheight : Json.heightOfMembers ms ≤ maxHeight) :
    shownMembers ms = some (.obj ms) := by
  have hmerged : Json.mergedMembers ms [] = ms :=
    Json.obj.inj (Json.merged_of_plain (.obj ms) hplain)
  have hmembers := Json.readableMembers_iff.mp hreadable
  have hall : (ms.all fun m => m.2.readable && decide (m.2.height ≤ maxHeight)) = true := by
    refine List.all_eq_true.mpr fun m hm => ?_
    rw [(hmembers m hm).2, decide_eq_true ((Json.height_le_of_mem hm).trans hheight)]
    rfl
  have hnames : (ms.map fun m => (RawText.text m.1.shown, m.2)) = ms := by
    refine (List.map_congr_left fun m hm => ?_).trans (List.map_id ms)
    obtain ⟨name, w⟩ := m
    cases name with
    | text s => rfl
    | unreadable codes => cases (hmembers _ hm).1
  unfold shownMembers
  simp only [hmerged, hall, if_true, hnames]

/-- Of an object that was stored as a text the members are shown that are read. -/
theorem shownDiagnostics_of_read {ms' : Json.Members} (he : e.diagnostics = some (Json.obj ms).text)
    (hread : Json.read dialect (Json.obj ms).text = .ok (.obj ms')) :
    shownDiagnostics e = shownMembers ms' := by
  unfold shownDiagnostics
  rw [he]
  simp only [Json.isEmpty_text_obj, hread, Bool.false_eq_true, if_false]

/-- An object that was stored as a text is shown as it was. -/
theorem shownDiagnostics_of_plain (he : e.diagnostics = some (Json.obj ms).text)
    (hplain : (Json.obj ms).plain = true) (hreadable : (Json.obj ms).readable = true)
    (hheight : Json.heightOfMembers ms ≤ maxHeight) : shownDiagnostics e = some (.obj ms) := by
  have hdepth : (Json.obj ms).height ≤ dialect.depth + 1 :=
    (Nat.succ_le_succ hheight).trans (by decide)
  rw [shownDiagnostics_of_read he (Json.read_text dialect hplain hdepth)]
  exact shownMembers_of_plain hplain hreadable hheight

/-- **The diagnostics of a refused transaction are shown as they are** exactly if the tags of all its
events are text. -/
theorem shownDiagnostics_iff (h : e.Documents t) :
    shownDiagnostics e = some t.diagnostics ↔ ∀ tag ∈ t.tags, tag.readable = true := by
  obtain ⟨hversion, r, time, -, rfl⟩ := h
  constructor
  · intro hshown
    exact t.readable_diagnostics.mp (readable_of_shown hshown)
  · intro htags
    have hheight := (Nat.le_of_succ_le_succ t.height_diagnostics).trans (by decide : 2 ≤ maxHeight)
    exact shownDiagnostics_of_plain rfl (Transaction.plain_diagnostics hversion htags)
      (t.readable_diagnostics.mpr htags) hheight

end Service
end TokenLedger

/-
# Bodies in the written form

The written form of a plain object is a body of that value: it starts with two characters of ASCII, and
it holds none that is spelled otherwise in a body (`Service.valueOfBody_text`). So the object is checked
as it was before it was written (`Service.withBody_text`), and a list of values can be sent to the route
of batches (`Request.carries_write`). What is answered to a list of values depends on what they are
accepted as: one of them may be replaced by any other one that is accepted as the same
(`Service.respond_congr_of_carries`). That holds of lists with other values that are refused as well,
since the issues are found in these.

Key definitions: `Service.batchJson`, `Request.Carries`.
Key theorems: `Json.notMem_write`, `Service.valueOfBody_text`, `Service.withBody_text`,
`Request.carries_write`, `Service.respond_congr_of_carries`.
-/
import TokenLedger.Proofs.Ingest.Diagnostics
import TokenLedger.Proofs.Json.RoundTrip
import TokenLedger.Proofs.Service.Posts

namespace TokenLedger

/-! ### Written values have no control characters -/

namespace Json

variable {c : Char}

theorem notMem_unitEscape (n : ℕ) : '\x1A' ∉ unitEscape n := by
  have hdigit : ∀ k < 16, hexChar k ≠ '\x1A' := by decide
  have hne : ∀ m, '\x1A' ≠ hexChar (m % 16) := fun m =>
    (hdigit (m % 16) (Nat.mod_lt m (by decide))).symm
  simp [unitEscape, hne]

theorem notMem_ite {p : Prop} [Decidable p] {as bs : List Char} (has : c ∉ as) (hbs : c ∉ bs) :
    c ∉ if p then as else bs := by
  split
  · exact has
  · exact hbs

theorem notMem_escape (c : Char) : '\x1A' ∉ escape c := by
  unfold escape
  -- the escapes by a letter
  iterate 7 refine notMem_ite (by decide) ?_
  split
  · rename_i hprint
    rw [List.mem_singleton]
    rintro rfl
    exact absurd hprint.1 (by decide)
  · have hpair := notMem_unitEscape (0xD800 + (c.toNat - 0x10000) / 0x400)
    exact notMem_ite (notMem_unitEscape _) (by simp [hpair, notMem_unitEscape])

theorem notMem_quoted (s : String) : '\x1A' ∉ quoted (.text s) := by
  have hcharacters : '\x1A' ∉ s.toList.flatMap escape := by
    rw [List.mem_flatMap]
    intro h
    obtain ⟨c, -, hc⟩ := h
    exact notMem_escape c hc
  simp [quoted, hcharacters]

theorem mem_separated {parts : List (List Char)} (h : c ∈ separated parts) :
    c = ',' ∨ c = ' ' ∨ ∃ part ∈ parts, c ∈ part := by
  induction parts with
  | nil => cases h
  | cons part parts ih =>
    cases parts with
    | nil => exact .inr (.inr ⟨part, List.mem_cons_self, h⟩)
    | cons next parts =>
      have hparts : separated (part :: next :: parts) =
          part ++ ',' :: ' ' :: separated (next :: parts) := rfl
      rw [hparts, List.mem_append, List.mem_cons, List.mem_cons] at h
      rcases h with hpart | rfl | rfl | hrest
      · exact .inr (.inr ⟨part, List.mem_cons_self, hpart⟩)
      · exact .inl rfl
      · exact .inr (.inl rfl)
      · rcases ih hrest with hcomma | hspace | ⟨other, hmem, hc⟩
        · exact .inl hcomma
        · exact .inr (.inl hspace)
        · exact .inr (.inr ⟨other, List.mem_cons_of_mem _ hmem, hc⟩)

theorem notMem_separated {parts : List (List Char)} (h : ∀ part ∈ parts, '\x1A' ∉ part) :
    '\x1A' ∉ separated parts := by
  intro hc
  rcases mem_separated hc with hcomma | hspace | ⟨part, hpart, hmem⟩
  · exact absurd hcomma (by decide)
  · exact absurd hspace (by decide)
  · exact h part hpart hmem

mutual

/-- **The written form of a plain value does not hold the control character** that stands for what is
no character. -/
theorem notMem_write : ∀ v : Json, v.plain = true → '\x1A' ∉ write v
  | .null, _ => by decide
  | .bool true, _ => by decide
  | .bool false, _ => by decide
  | .whole n, _ => Whole.notMem_text (by decide) (by decide) (by decide) n
  | .float _, hplain => by cases hplain
  | .str (.text s), _ => notMem_quoted s
  | .str (.unreadable _), hplain => by cases hplain
  | .arr vs, hplain => by
    have hitems := notMem_separated (notMem_writeItems vs hplain)
    simp [write_arr, hitems]
  | .obj ms, hplain => by
    have hmembers : plainMembers ms = true := (Bool.and_eq_true _ _ ▸ hplain).2
    have hparts := notMem_separated (notMem_writeMembers ms hmembers)
    simp [write_obj, hparts]

theorem notMem_writeItems : ∀ vs : List Json, plainItems vs = true →
    ∀ part ∈ vs.map write, '\x1A' ∉ part
  | [], _ => by simp
  | v :: vs, hplain => by
    rw [plainItems, Bool.and_eq_true] at hplain
    rw [List.map_cons]
    exact List.forall_mem_cons.mpr ⟨notMem_write v hplain.1, notMem_writeItems vs hplain.2⟩

theorem notMem_writeMembers : ∀ ms : Members, plainMembers ms = true →
    ∀ part ∈ ms.map writeMember, '\x1A' ∉ part
  | [], _ => by simp
  | (.unreadable _, _) :: _, hplain => by cases hplain
  | (.text name, v) :: ms, hplain => by
    rw [plainMembers, Bool.and_eq_true, Bool.and_eq_true] at hplain
    have hname := notMem_quoted name
    have hvalue := notMem_write v hplain.1.2
    rw [List.map_cons]
    refine List.forall_mem_cons.mpr ⟨?_, notMem_writeMembers ms hplain.2⟩
    simp [writeMember, hname, hvalue]

end

/-- Other characters are spelled as they are. -/
theorem flatMap_substitute {cs : List Char} (h : '\x1A' ∉ cs) :
    cs.flatMap (fun c => substitute c.toNat) = cs := by
  induction cs with
  | nil => rfl
  | cons c cs ih =>
    rw [List.mem_cons, not_or] at h
    have hcode : c.toNat ≠ 0x1A := fun heq => h.1 (Char.toNat_inj.mp heq).symm
    have hvalid : c.toNat.isValidChar := c.valid
    rw [List.flatMap_cons, ih h.2, substitute, if_neg hcode, if_pos hvalid, Char.ofNat_toNat]
    rfl

end Json

/-- A written transaction is not nested deeply. -/
theorem Transaction.height_toJson_le (t : Transaction) : t.toJson.height ≤ 6 := by
  have htime : (Json.ofOption Timestamp.toJson t.timestamp).height ≤ 2 := by
    cases t.timestamp with
    | none => decide
    | some time => exact le_rfl
  have hevents : (Json.ofOption (fun es => .obj [("events", .arr (es.map RawEvent.toJson))])
      t.events).height ≤ 5 := by
    cases t.events with
    | none => decide
    | some es =>
      have hitems : Json.heightOfItems (es.map RawEvent.toJson) ≤ 3 := by
        apply Json.heightOfItems_le
        intro v hv
        obtain ⟨e, -, rfl⟩ := List.mem_map.mp hv
        exact le_rfl
      show max (Json.heightOfItems (es.map RawEvent.toJson) + 1) 0 + 1 ≤ 5
      omega
  simp only [Transaction.toJson, Json.height, Json.heightOfMembers]
  omega

/-! ### The value of a written body -/

namespace Service

/-- **The written form of a plain object is a body of that object**, if it has a member and is not
nested too deeply. -/
theorem valueOfBody_text {m : RawText × Json} {ms : Json.Members}
    (hplain : (Json.obj (m :: ms)).plain = true)
    (hheight : (Json.obj (m :: ms)).height ≤ bodyDialect.depth + 1) :
    valueOfBody (Json.obj (m :: ms)).text = .ok (.obj (m :: ms)) := by
  obtain ⟨cs, hcs⟩ : ∃ cs, Json.write (.obj (m :: ms)) = '\x7b' :: '"' :: cs := by
    obtain ⟨name, v⟩ := m
    obtain ⟨tail, htail⟩ := Json.exists_separated_eq_append (Json.writeMember (name, v))
      (ms.map Json.writeMember)
    rw [Json.write_obj, List.map_cons, htail, Json.writeMember]
    cases name <;> exact ⟨_, rfl⟩
  have hcharacters : Json.Encoding.characters? (Json.obj (m :: ms)).text =
      some (Json.write (.obj (m :: ms))) := by
    have hsame := Json.flatMap_substitute (Json.notMem_write _ hplain)
    rw [Json.text]
    rw [hcs] at hsame ⊢
    rw [Json.Encoding.characters?_ofList (by decide) (by decide), hsame]
  have hread : Json.readCharacters bodyDialect (Json.write (.obj (m :: ms))) =
      .ok (.obj (m :: ms)) := by
    have htext := Json.read_text bodyDialect hplain hheight
    rwa [Json.read, Json.text, String.toList_ofList] at htext
  simp only [valueOfBody, hcharacters, hread, Json.merged_of_plain _ hplain]

/-- The body of a batch. -/
def batchJson (vs : List Json) : Json :=
  .obj [("transactions", .arr vs)]

end Service

/-- A request brings values to the route of batches. -/
structure Request.Carries (r : Request) (vs : List Json) : Prop where
  target : r.target = .route .ingest
  verb : r.verb = "POST"
  body : ∃ text ms, r.body = some text ∧ text.isEmpty = false ∧
    Service.valueOfBody text = .ok (.obj ms) ∧ Json.last? "transactions" ms = some (.arr vs)

/-- **Plain values can be brought in their written form.** -/
theorem Request.carries_write {r : Request} {vs : List Json} (htarget : r.target = .route .ingest)
    (hverb : r.verb = "POST") (hplain : ∀ v ∈ vs, v.plain = true)
    (hheight : ∀ v ∈ vs, v.height < Service.bodyDialect.depth) :
    ({ r with body := some (Service.batchJson vs).text } : Request).Carries vs := by
  have hbody : (Service.batchJson vs).plain = true := by
    have hitems := Json.plainItems_iff.mpr hplain
    simp [Service.batchJson, Json.plain, Json.plainMembers, RawText.readable, hitems]
  have hdeep : (Service.batchJson vs).height ≤ Service.bodyDialect.depth + 1 := by
    have hitems : Json.heightOfItems vs ≤ 944 :=
      Json.heightOfItems_le fun v hv => Nat.le_of_lt_succ (hheight v hv)
    show max (Json.heightOfItems vs + 1) 0 + 1 ≤ 946
    omega
  exact ⟨htarget, hverb, _, _, rfl, Json.isEmpty_text_obj _, Service.valueOfBody_text hbody hdeep, rfl⟩

/-! ### What is posted -/

namespace Service

variable {r : Request} {vs : List Json} {ts : List Transaction}

theorem withBody_eq_ok_iff {α : Type} {body : Option String} {check : Check α} {a : α} :
    withBody body check = .ok a ↔ ∃ text v, body = some text ∧ text.isEmpty = false ∧
      valueOfBody text = .ok v ∧ check v = .ok a := by
  constructor
  · intro h
    unfold withBody at h
    split at h
    · cases h
    · rename_i text
      split at h
      · cases h
      · rename_i hempty
        split at h
        · cases h
        · rename_i v hv
          split at h
          · rename_i b hb
            cases h
            exact ⟨text, v, rfl, Bool.eq_false_iff.mpr hempty, hv, hb⟩
          · split_ifs at h
  · intro h
    obtain ⟨text, v, rfl, hempty, hv, ha⟩ := h
    simp only [withBody, hempty, hv, ha]
    rfl

/-- The written form of a plain object is, as a body, what the object is to a check. -/
theorem withBody_text {α : Type} {check : Check α} {a : α} {m : RawText × Json} {ms : Json.Members}
    (hplain : (Json.obj (m :: ms)).plain = true)
    (hheight : (Json.obj (m :: ms)).height ≤ bodyDialect.depth + 1)
    (h : check (.obj (m :: ms)) = .ok a) :
    withBody (some (Json.obj (m :: ms)).text) check = .ok a :=
  withBody_eq_ok_iff.mpr
    ⟨_, _, rfl, Json.isEmpty_text_obj _, valueOfBody_text hplain hheight, h⟩

/-- What a body stands for is read from characters, and has every name once. -/
theorem exists_of_valueOfBody {text : String} {v : Json} (h : valueOfBody text = .ok v) :
    ∃ cs u, Json.readCharacters bodyDialect cs = .ok u ∧ v = u.merged := by
  unfold valueOfBody at h
  split at h
  · cases h
  · rename_i cs _
    split at h
    · rename_i u hu
      cases h
      exact ⟨cs, u, hu, rfl⟩
    · cases h
    · cases h

/-- A batch that is posted is brought as a list of values, each of which is accepted. -/
theorem carries_of_posts (h : r.Posts .ingest checkBatch ts) :
    ∃ vs, r.Carries vs ∧ List.Forall₂ (fun v t => Transaction.check .request v = .ok t) vs ts := by
  obtain ⟨text, v, hbody, hempty, hv, hbatch⟩ := withBody_eq_ok_iff.mp h.body
  obtain ⟨ms, rfl, hmember⟩ := Check.record_eq_ok_iff.mp hbatch
  obtain ⟨w, hw, hlist⟩ := Check.required_eq_ok_iff.mp hmember
  cases w with
  | arr vs =>
    exact ⟨vs, ⟨h.target, h.verb, text, ms, hbody, hempty, hv, hw⟩, Check.listOf_eq_ok_iff.mp hlist⟩
  | null | bool | whole | float | str | obj => cases hlist

theorem posts_of_carries (h : r.Carries vs)
    (hall : List.Forall₂ (fun v t => Transaction.check .request v = .ok t) vs ts) :
    r.Posts .ingest checkBatch ts := by
  obtain ⟨text, ms, hbody, hempty, hvalue, hms⟩ := h.body
  have hbatch : checkBatch (.obj ms) = .ok ts :=
    Check.record_eq_ok_iff.mpr ⟨ms, rfl, Check.required_eq_ok_iff.mpr
      ⟨.arr vs, hms, Check.listOf_eq_ok_iff.mpr hall⟩⟩
  exact ⟨h.target, h.verb, withBody_eq_ok_iff.mpr ⟨text, _, hbody, hempty, hvalue, hbatch⟩⟩

end Service

/-! ### Values that are accepted alike -/

namespace Check

variable {α : Type} {check : Check α} {v w : Json}

/-- What is found in a list does not change if an item is replaced by one that is checked alike. -/
theorem items_congr (h : check w = check v) (before after : List Json) (start : ℕ) :
    items check start (before ++ w :: after) = items check start (before ++ v :: after) := by
  induction before generalizing start with
  | nil => rw [List.nil_append, List.nil_append, items, items, h]
  | cons u before ih => rw [List.cons_append, List.cons_append, items, items, ih]

/-- Every issue of a list is one of an item that is refused. -/
theorem exists_refused_of_issue {vs : List Json} {start : ℕ} {issues : List Issue}
    (h : Checked.all (items check start vs) = .error issues) {i : Issue} (hi : i ∈ issues) :
    ∃ k u place, vs[k]? = some u ∧ check.Refuses u ∧ i.place = .item (start + k) :: place := by
  induction vs generalizing start issues with
  | nil => cases h
  | cons u vs ih =>
    -- the issues of the first item, and those of the others
    have hfirst : ∀ js, check u = .error js → i ∈ js.map (Issue.within (.item start)) →
        ∃ k w place, (u :: vs)[k]? = some w ∧ check.Refuses w ∧
          i.place = .item (start + k) :: place := by
      intro js hjs hmem
      obtain ⟨j, -, rfl⟩ := List.mem_map.mp hmem
      exact ⟨0, u, j.place, rfl, ⟨js, hjs⟩, rfl⟩
    have hrest : ∀ js, Checked.all (items check (start + 1) vs) = .error js → i ∈ js →
        ∃ k w place, (u :: vs)[k]? = some w ∧ check.Refuses w ∧
          i.place = .item (start + k) :: place := by
      intro js hjs hmem
      obtain ⟨k, w, place, hk, hw, hplace⟩ := ih hjs hmem
      exact ⟨k + 1, w, place, hk, hw, by rw [hplace, Nat.add_assoc, Nat.add_comm 1 k]⟩
    rw [items, Checked.all] at h
    cases hu : check u with
    | ok a =>
      cases hvs : Checked.all (items check (start + 1) vs) with
      | ok as => simp [hu, hvs, Checked.under, Checked.ap, Checked.value] at h
      | error js =>
        simp only [hu, hvs, Checked.under, Checked.ap, Checked.value, Except.error.injEq] at h
        exact hrest js hvs (h ▸ hi)
    | error js =>
      cases hvs : Checked.all (items check (start + 1) vs) with
      | ok as =>
        simp only [hu, hvs, Checked.under, Checked.ap, Checked.value, Except.error.injEq] at h
        exact hfirst js hu (h ▸ hi)
      | error ks =>
        simp only [hu, hvs, Checked.under, Checked.ap, Checked.value, Except.error.injEq] at h
        rw [← h] at hi
        rcases List.mem_append.mp hi with hmem | hmem
        · exact hfirst js hu hmem
        · exact hrest ks hvs hmem

end Check

/-- Where a list has an item that is refused, nothing else stands if an accepted item is replaced. -/
theorem getElem?_of_refused {α : Type} {check : Check α} {v u : Json} {a : α} (hv : check v = .ok a)
    (w : Json) (before after : List Json) {k : ℕ} (hk : (before ++ v :: after)[k]? = some u)
    (hu : check.Refuses u) : (before ++ w :: after)[k]? = some u := by
  have hne : k ≠ before.length := by
    rintro rfl
    rw [List.getElem?_append_right le_rfl, Nat.sub_self, List.getElem?_cons_zero,
      Option.some.injEq] at hk
    exact hu.ne_ok a (hk ▸ hv)
  rcases Nat.lt_or_gt_of_ne hne with hlt | hgt
  · rw [List.getElem?_append_left hlt] at hk ⊢
    exact hk
  · rw [List.getElem?_append_right hgt.le] at hk ⊢
    obtain ⟨j, hj⟩ : ∃ j, k - before.length = j + 1 := ⟨k - before.length - 1, by omega⟩
    rw [hj, List.getElem?_cons_succ] at hk ⊢
    exact hk

namespace Service

variable {v w : Json} {t : Transaction} {before after : List Json} {ms ns : Json.Members}

/-- The batch is checked alike. -/
theorem checkBatch_congr (h : Transaction.check .request w = Transaction.check .request v)
    (hms : Json.last? "transactions" ms = some (.arr (before ++ v :: after)))
    (hns : Json.last? "transactions" ns = some (.arr (before ++ w :: after))) :
    checkBatch (.obj ns) = checkBatch (.obj ms) := by
  simp only [checkBatch, Check.record, Check.required, hms, hns, Check.listOf, Check.items_congr h]

/-- What is quoted with an issue of a batch is found in both. -/
theorem part_congr (hv : Transaction.check .request v = .ok t)
    (hms : Json.last? "transactions" ms = some (.arr (before ++ v :: after)))
    (hns : Json.last? "transactions" ns = some (.arr (before ++ w :: after)))
    {issues : List Issue} (h : checkBatch (.obj ms) = .error issues) {i : Issue} (hi : i ∈ issues) :
    part (.obj ns) i.place = part (.obj ms) i.place := by
  have hitems : ∃ js, Checked.all (Check.items (Transaction.check .request) 0 (before ++ v :: after)) =
      .error js ∧ issues = js.map (Issue.within (.field "transactions")) := by
    simp only [checkBatch, Check.record, Check.required, hms, Check.listOf] at h
    cases hall : Checked.all (Check.items (Transaction.check .request) 0 (before ++ v :: after)) with
    | ok ts => simp [hall, Checked.under] at h
    | error js =>
      simp only [hall, Checked.under, Except.error.injEq] at h
      exact ⟨js, rfl, h.symm⟩
  obtain ⟨js, hjs, rfl⟩ := hitems
  obtain ⟨j, hj, rfl⟩ := List.mem_map.mp hi
  obtain ⟨k, u, place, hk, hu, hplace⟩ := Check.exists_refused_of_issue hjs hj
  have hk' := getElem?_of_refused hv w before after hk hu
  rw [Nat.zero_add] at hplace
  simp only [Issue.within, hplace, part, hms, hns, hk, hk']

/-- **A value may stand for another one in what is brought.** -/
theorem respond_congr_of_carries {r r' : Request} (hv : Transaction.check .request v = .ok t)
    (hw : Transaction.check .request w = .ok t) (hr : r.Carries (before ++ v :: after))
    (hr' : r'.Carries (before ++ w :: after)) (s : Store) (time : ℕ) :
    respond s time r' = respond s time r := by
  obtain ⟨text, ms, hbody, hempty, hvalue, hms⟩ := hr.body
  obtain ⟨text', ns, hbody', hempty', hvalue', hns⟩ := hr'.body
  have hcheck := checkBatch_congr (hw.trans hv.symm) hms hns
  have hwith : withBody r'.body checkBatch = withBody r.body checkBatch := by
    simp only [withBody, hbody, hbody', hempty, hempty', hvalue, hvalue', hcheck]
    cases hissues : checkBatch (.obj ms) with
    | ok ts => rfl
    | error issues =>
      have hquotable : (issues.all fun i => quotable (part (.obj ns) i.place)) =
          issues.all fun i => quotable (part (.obj ms) i.place) := by
        rw [Bool.eq_iff_iff, List.all_eq_true, List.all_eq_true]
        apply forall₂_congr
        intro i hi
        rw [part_congr hv hms hns hissues hi]
      simp only [hquotable]
  rw [respond_of_post hr.verb, respond_of_post hr'.verb, handle, handle, hr.target, hr'.target]
  simp only [Route.method, hr.verb, hr'.verb, if_true]
  rw [answer, answer, hwith]

end Service
end TokenLedger

/-
# What decoding depends on

The payload of an event is decoded by its declared members alone. Two payloads whose objects agree in
the last member of every declared name, and so do the objects of the tokens in them, are decoded alike:
to one event, or to reports with the same issues (`Event.decode_of_declared`). White space, the order of
members, undeclared members and earlier members of a name do not matter. An event keeps some values of
the payload, those of its properties: if these only show the same in the payloads, the events are the
same up to what shows the same. A tag of no kind is answered before the payload is looked at.

Key definitions: `Event.Like`.
Key theorems: `Event.minds_check`, `Event.Reads.decode_alike`, `Event.decode_of_declared`.
-/
import TokenLedger.Proofs.Event.Faults
import TokenLedger.Proofs.Schema.Alike

namespace TokenLedger

/-- Two events are equal, up to the new values of properties, which are alike. -/
inductive Event.Like (like : Json → Json → Prop) : Event → Event → Prop where
  | refl (e : Event) : Like like e e
  | mutate (before after : TokenId) (keys : List String) {values values' : List Json}
    (types : List String) (h : List.Forall₂ like values values') :
    Like like (.mutate before after keys values types) (.mutate before after keys values' types)

variable {like : Json → Json → Prop}

/-! ### The checks of events -/

section

open Check

theorem TokenData.minds_check (hlike : Json.Likeness like) :
    TokenData.check.Minds like TokenData.shape Eq := by
  refine minds_record hlike fun ms ns h => ?_
  obtain ⟨hcreator, hcollection, hname, -⟩ := h
  have htext := minds_text hlike
  refine (((Alike.value ?_).ap (htext.required hcreator)).ap (htext.required hcollection)).ap
    (htext.required hname)
  rintro c _ rfl l _ rfl n _ rfl
  rfl

theorem TokenId.minds_check (hlike : Json.Likeness like) :
    TokenId.check.Minds like TokenId.shape Eq := by
  refine minds_record hlike fun ms ns h => ?_
  obtain ⟨hdata, hversion, -⟩ := h
  refine ((Alike.value ?_).ap ((TokenData.minds_check hlike).required hdata)).ap
    ((minds_amount hlike).required hversion)
  rintro t _ rfl d _ rfl
  rfl

theorem Transfer.minds_check (hlike : Json.Likeness like) :
    Transfer.check.Minds like Transfer.shape Eq := by
  refine minds_record hlike fun ms ns h => ?_
  obtain ⟨hrecipient, htoken, hamount, -⟩ := h
  refine (((Alike.value ?_).ap ((minds_text hlike).required hrecipient)).ap
    ((TokenId.minds_check hlike).required htoken)).ap ((minds_amount hlike).required hamount)
  rintro r _ rfl t _ rfl d _ rfl
  rfl

namespace Event

theorem minds_checkMove (hlike : Json.Likeness like) {α : Type} {token : Check α} {shape : Shape}
    (h : token.Minds like shape Eq) (event : α → Decimal → Event) :
    (checkMove token event).Minds like (moveShape shape) (Like like) := by
  refine minds_record hlike fun ms ns hagree => ?_
  obtain ⟨htoken, hamount, -⟩ := hagree
  refine ((Alike.value ?_).ap (h.required htoken)).ap ((minds_amount hlike).required hamount)
  rintro t _ rfl d _ rfl
  exact .refl _

theorem minds_checkMutate (hlike : Json.Likeness like) :
    checkMutate.Minds like mutateShape (Like like) := by
  refine minds_record hlike fun ms ns h => ?_
  obtain ⟨hbefore, hafter, hkeys, hvalues, htypes, -⟩ := h
  have htoken := TokenId.minds_check hlike
  have htexts := (minds_text hlike).listOf hlike
  refine (((((Alike.value ?_).ap (htoken.required hbefore)).ap (htoken.required hafter)).ap
    (htexts.defaulted .nil hkeys)).ap (((minds_any hlike).listOf hlike).defaulted .nil hvalues)).ap
    (htexts.defaulted .nil htypes)
  rintro before _ rfl after _ rfl keys keys' hkeys values values' hvalues types types' htypes
  -- lists of texts whose items are equal are equal; the values are only alike
  rw [List.forall₂_eq_eq_eq] at hkeys htypes
  subst hkeys htypes
  exact .mutate before after keys types hvalues

/-- **The check of a kind minds its shape only.** -/
theorem minds_check (hlike : Json.Likeness like) (kind : EventKind) :
    (check kind).Minds like kind.shape (Like like) := by
  have htransfer : ∀ event : Transfer → Event,
      Check.Minds (fun v => (Transfer.check v).map event) like Transfer.shape (Like like) := by
    refine fun event v w h => (Transfer.minds_check hlike v w h).map ?_
    rintro t _ rfl
    exact .refl _
  cases kind with
  | mint => exact minds_checkMove hlike (TokenData.minds_check hlike) _
  | burn | withdraw | deposit => exact minds_checkMove hlike (TokenId.minds_check hlike) _
  | mutate => exact minds_checkMutate hlike
  | offer | cancelOffer | claim => exact htransfer _

end Event

end

/-! ### Decoding -/

namespace Event

variable {kind : EventKind} {payload payload' : RawText} {v w : Json}

/-- Payloads whose values agree for the shape of the kind are decoded alike. -/
theorem Reads.decode_alike (hlike : Json.Likeness like)
    (hv : Reads (.text kind.tag) payload kind v) (hw : Reads (.text kind.tag) payload' kind w)
    (h : kind.shape.Agree like v w) :
    Alike (Option.Rel (Like like)) (decode (.text kind.tag) payload)
      (decode (.text kind.tag) payload') := by
  unfold decode
  rw [kindOf?_eq_some_iff.mpr rfl]
  dsimp only
  rw [hv.ofPayload_eq, hw.ofPayload_eq]
  have hcheck := minds_check hlike kind v w h
  generalize check kind v = x at hcheck ⊢
  generalize check kind w = y at hcheck ⊢
  cases hcheck with
  | value hsame => exact .value (.some hsame)
  | failure issues => exact .failure _

/-- Events whose values are equal are equal. -/
theorem Like.eq {e e' : Event} (h : Like Eq e e') : e = e' := by
  cases h with
  | refl => rfl
  | mutate before after keys types h =>
    rw [List.forall₂_eq_eq_eq] at h
    rw [h]

/-- What is alike up to equal values is equal. -/
theorem eq_of_alike {x y : Except Malformed (Option Event)} (h : Alike (Option.Rel (Like Eq)) x y) :
    x = y := by
  cases h with
  | value h =>
    cases h with
    | none => rfl
    | some h => rw [h.eq]
  | failure m => rfl

/-- **Decoding depends on the declared members only.** Payloads of one kind whose objects agree in the
last members of the declared names, and so on in the objects of tokens, give the same event or the same
issues, the values of properties being equal or only such that they show the same. A tag of no kind
gives nothing, whatever the payload. -/
theorem decode_of_declared :
    (∀ (kind : EventKind) payload payload' ms ns,
      Reads (.text kind.tag) payload kind (.obj ms) →
      Reads (.text kind.tag) payload' kind (.obj ns) →
      (kind.shape.Agree Eq (.obj ms) (.obj ns) →
        decode (.text kind.tag) payload = decode (.text kind.tag) payload') ∧
      (kind.shape.Agree Json.Same (.obj ms) (.obj ns) →
        Alike (Option.Rel (Like Json.Same)) (decode (.text kind.tag) payload)
          (decode (.text kind.tag) payload'))) ∧
    ∀ tag payload, (∀ kind : EventKind, tag ≠ .text kind.tag) → decode tag payload = .ok none := by
  refine ⟨fun kind payload payload' ms ns hms hns => ⟨fun h => ?_, fun h => ?_⟩, ?_⟩
  · exact eq_of_alike (hms.decode_alike Json.likeness_eq hns h)
  · exact hms.decode_alike Json.likeness_same hns h
  · intro tag payload htag
    refine decode_of_kindOf?_eq_none ?_ payload
    refine Option.eq_none_iff_forall_ne_some.mpr fun kind hkind => htag kind ?_
    exact kindOf?_eq_some_iff.mp hkind

/-- The members of a mint. -/
def tidy : Json.Members :=
  [("id", .obj [("creator", .str "0x1"), ("collection", .str "a"), ("name", .str "b")]),
    ("amount", .str "7")]

/-- The members of the same mint in another order, and some that do not count. -/
def untidy : Json.Members :=
  [("amount", .null), ("id", .obj [("name", .str "b"), ("uri", .arr []), ("collection", .str "a"),
    ("creator", .whole 1), ("creator", .str "0x1")]), ("amount", .str "7")]

def untidyText : String :=
  "\x7b\"amount\":null,\n\"id\":\x7b\"name\":\"b\",\"uri\":[],\"collection\":\"a\",\"creator\":1," ++
    "\"creator\":\"0x1\"\x7d,\"amount\":\"7\" \x7d"

set_option maxRecDepth 100000 in
theorem read_untidyText : Json.read payloadDialect untidyText = .ok (.obj untidy) := by
  cbv

/-- The members of a change of properties to one new value. -/
def changed (value : Json) : Json.Members :=
  let t : TokenId := ⟨⟨"0x1", "a", "b"⟩, .zero⟩
  [("old_id", t.toJson), ("new_id", t.toJson), ("values", .arr [value])]

/-- A mint in two texts, a change of properties in two texts with the members of the new value in either
order, and a tag of no kind. -/
theorem decode_of_untidy :
    decode (.text EventKind.mint.tag) (.text (Json.obj tidy).text) =
        decode (.text EventKind.mint.tag) (.text untidyText) ∧
      decode (.text EventKind.mint.tag) (.text untidyText) =
        .ok (some (.mint ⟨"0x1", "a", "b"⟩ ⟨false, 7, 0⟩)) ∧
      Alike (Option.Rel (Like Json.Same))
        (decode (.text EventKind.mutate.tag)
          (.text (Json.obj (changed (.obj [("x", .null), ("y", .null)]))).text))
        (decode (.text EventKind.mutate.tag)
          (.text (Json.obj (changed (.obj [("y", .null), ("x", .null)]))).text)) ∧
      decode (.text "0x1::coin::DepositEvent") (.text "\x7b") = .ok none := by
  have hplain : ∀ (kind : EventKind) (ms : Json.Members), (Json.obj ms).plain = true →
      (Json.obj ms).height ≤ payloadDialect.depth + 1 →
      Reads (.text kind.tag) (.text (Json.obj ms).text) kind (.obj ms) :=
    fun kind ms hms hheight => ⟨rfl, _, rfl, Json.read_text payloadDialect hms hheight⟩
  have htidy := hplain .mint tidy (by decide) (by decide)
  have huntidy : Reads (.text EventKind.mint.tag) (.text untidyText) .mint (.obj untidy) :=
    ⟨rfl, _, rfl, read_untidyText⟩
  have hmint : EventKind.mint.shape.Agree Eq (.obj tidy) (.obj untidy) :=
    ⟨.some ⟨.some rfl, .some rfl, .some rfl, trivial⟩, .some rfl, trivial⟩
  have hequal := (decode_of_declared.1 .mint _ _ _ _ htidy huntidy).1 hmint
  have hvalue : (Json.obj [("x", .null), ("y", .null)]).Same (.obj [("y", .null), ("x", .null)]) :=
    Json.same_of_perm (.swap _ _ _) (by decide)
  have htoken := TokenId.shape.agree_refl Json.Same.refl
  have hchange : EventKind.mutate.shape.Agree Json.Same
      (.obj (changed (.obj [("x", .null), ("y", .null)])))
      (.obj (changed (.obj [("y", .null), ("x", .null)]))) :=
    ⟨.some (htoken _), .some (htoken _), .none, .some (.cons hvalue .nil), .none, trivial⟩
  refine ⟨hequal, ?_, ?_, ?_⟩
  · rw [← hequal]
    exact decode_tag (htidy.ofPayload_eq.trans rfl)
  · exact (decode_of_declared.1 .mutate _ _ _ _ (hplain _ _ (by decide) (by decide))
      (hplain _ _ (by decide) (by decide))).2 hchange
  · refine decode_of_declared.2 _ _ fun kind => ?_
    cases kind <;> decide

end Event
end TokenLedger

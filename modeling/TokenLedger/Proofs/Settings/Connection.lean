/-
# When the address of a connection tells where it leads

The address of the database connection joins user, password, host, port and database by a colon, an at
sign, a colon and a slash, and escapes none that stand inside its parts. The port is a whole number, so
it holds neither a colon nor a slash; every other boundary can be mistaken. Of two settings with one
address the places of the boundaries decide (`Settings.SameUrl.sameConnection_iff`). The address of a
setting is its own exactly if its boundaries show (`Settings.unique_iff_boundariesShow`): there is no
colon in user and password, no at sign in password and host, and nothing that looks like a port between
its marks in host and database.

Key definitions: `Settings.SameUrl`, `Settings.SameConnection`, `Settings.SameBoundaries`, `HoldsPort`,
`Settings.BoundariesShow`.
Key theorems: `Settings.target_inj`, `Settings.SameUrl.sameConnection_iff`,
`Settings.unique_iff_boundariesShow`, `Settings.check_members`, `Settings.connection_of_url_iff`.
-/
import TokenLedger.Proofs.Decimal.Plain
import TokenLedger.Proofs.Text.Normal
import TokenLedger.Proofs.Text.Separators
import TokenLedger.Settings

namespace TokenLedger

/-! ### Settings from what they say -/

namespace Settings

variable {s : Settings} {ms : Json.Members}

/-- The names are in lower case, and so they mean themselves. -/
theorem named?_of_mem {name : String} (h : name ∈ names) : named? (.text name) = some name := by
  have hascii : ∀ name ∈ names, ∀ c ∈ name.toList, 0x5A < c.toNat ∧ c.toNat < 0x80 := by
    simp [names]
  have hlower : Text.toLower name.toList = name.toList := Text.toLower_of_isLower fun c hc =>
    Text.isLower_of_ascii (hascii name h c hc).2 (.inr (hascii name h c hc).1)
  have hcontains : names.contains name = true := List.elem_eq_true_of_mem h
  simp only [named?, RawText.shown, hlower, String.ofList_toList, hcontains, if_true]

/-- The members of a setting that is written. -/
def members (s : Settings) : Json.Members :=
  [("db_host", .str s.host), ("db_port", .whole s.port), ("db_user", .str s.user),
    ("db_password", .str s.password), ("db_name", .str s.database), ("debug", .bool s.debug)]

theorem known_of_names (h : ∀ m ∈ ms, ∃ name ∈ names, m.1 = .text name) : known ms = ms := by
  have hkept : ∀ m ∈ ms, (named? m.1).map (fun t => (RawText.text t, m.2)) = some m := by
    intro m hm
    obtain ⟨name, hname, heq⟩ := h m hm
    rw [heq, named?_of_mem hname, Option.map_some, ← heq]
  exact (List.filterMap_congr hkept).trans List.filterMap_some

theorem undeclared_of_names (h : ∀ m ∈ ms, ∃ name ∈ names, m.1 = .text name) :
    undeclared ms = [] := by
  have hnone : ∀ m ∈ ms, ¬ (named? m.1).isNone := by
    intro m hm
    obtain ⟨name, hname, heq⟩ := h m hm
    simp [heq, named?_of_mem hname]
  rw [undeclared, List.filter_eq_nil_iff.mpr hnone, List.map_nil]

/-- Arguments under the names of settings are taken as they are, and the first of a name counts. -/
theorem check_of_names (h : ∀ m ∈ ms, ∃ name ∈ names, m.1 = .text name)
    (hs : ofMembers ms.reverse = .ok s) : check [] ms = .ok s := by
  have hnil : known [] = [] := rfl
  simp only [check, hnil, List.nil_append, known_of_names h, undeclared_of_names h, hs]

theorem ofMembers_reverse_members (s : Settings) : ofMembers s.members.reverse = .ok s := by
  simp only [ofMembers, members, Check.defaulted, List.reverse_cons, List.reverse_nil,
    List.nil_append, List.cons_append]
  rfl

/-- **What a setting says is accepted, and gives it back.** So every setting is one that can be
accepted. -/
theorem check_members (s : Settings) : check [] s.members = .ok s :=
  check_of_names (by simp [members, names]) (ofMembers_reverse_members s)

end Settings

/-! ### Ports -/

namespace Whole

theorem colon_notMem_text (n : ℤ) : ':' ∉ (text n).toList :=
  notMem_text (by decide) (by decide) (by decide) n

theorem slash_notMem_text (n : ℤ) : '/' ∉ (text n).toList :=
  notMem_text (by decide) (by decide) (by decide) n

end Whole

/-- Somewhere in a text a whole number stands between a colon and a slash. -/
def HoldsPort (cs : List Char) : Prop :=
  ∃ n : ℤ, ':' :: ((Whole.text n).toList ++ ['/']) <:+: cs

theorem holdsPort_of_eq {cs as bs : List Char} {n : ℤ}
    (h : cs = as ++ ':' :: ((Whole.text n).toList ++ '/' :: bs)) : HoldsPort cs :=
  ⟨n, as, bs, by rw [h]; simp⟩

/-- In a text that starts with a port, a colon is the one in front of the port or stands behind the
slash. -/
theorem colon_of_port {as xs ys : List Char} {n : ℤ}
    (h : ':' :: ((Whole.text n).toList ++ '/' :: xs) = as ++ ':' :: ys) :
    (as = [] ∧ (Whole.text n).toList ++ '/' :: xs = ys) ∨
      ∃ bs, as = ':' :: ((Whole.text n).toList ++ '/' :: bs) ∧ xs = bs ++ ':' :: ys := by
  cases as with
  | nil => exact .inl ⟨rfl, List.tail_eq_of_cons_eq h⟩
  | cons a as =>
    have hcolon : ':' = a := List.head_eq_of_cons_eq h
    obtain ⟨bs, has, hbs⟩ :=
      Text.exists_append_of_notMem (Whole.colon_notMem_text n) (List.tail_eq_of_cons_eq h)
    cases bs with
    | nil => exact absurd (List.head_eq_of_cons_eq hbs) (by decide)
    | cons b bs =>
      have hslash : '/' = b := List.head_eq_of_cons_eq hbs
      exact .inr ⟨bs, by rw [has, ← hcolon, ← hslash], List.tail_eq_of_cons_eq hbs⟩

namespace Settings

variable {s t : Settings}

/-- **Where nothing else looks like a port, host, port and database can be told apart.** -/
theorem target_inj {hs ds hs' ds' : List Char} {m n : ℤ} (hhost : ¬ HoldsPort hs)
    (hdatabase : ¬ HoldsPort ds)
    (h : hs ++ ':' :: ((Whole.text m).toList ++ '/' :: ds) =
      hs' ++ ':' :: ((Whole.text n).toList ++ '/' :: ds')) : hs = hs' ∧ m = n ∧ ds = ds' := by
  have hmeet : (Whole.text m).toList ++ '/' :: ds = (Whole.text n).toList ++ '/' :: ds' →
      m = n ∧ ds = ds' := by
    intro hport
    obtain ⟨htext, hds⟩ := Text.append_sep_inj_left (Whole.slash_notMem_text m)
      (Whole.slash_notMem_text n) hport
    exact ⟨Whole.text_injective (String.toList_injective htext), hds⟩
  rcases List.append_eq_append_iff.mp h with ⟨as, hhs, hport⟩ | ⟨as, hhs, hport⟩
  · rcases colon_of_port hport with ⟨hnil, hrest⟩ | ⟨bs, -, hds⟩
    · exact ⟨by rw [hhs, hnil, List.append_nil], hmeet hrest⟩
    · exact absurd (holdsPort_of_eq hds) hdatabase
  · rcases colon_of_port hport with ⟨hnil, hrest⟩ | ⟨bs, has, -⟩
    · exact ⟨by rw [hhs, hnil, List.append_nil], hmeet hrest.symm⟩
    · exact absurd (holdsPort_of_eq (hhs.trans (by rw [has]))) hhost

/-! ### One address -/

/-- Two settings have one address. -/
def SameUrl (s t : Settings) : Prop :=
  s.databaseUrl = t.databaseUrl

/-- Two settings lead to one database, as one user with one password. -/
def SameConnection (s t : Settings) : Prop :=
  s.user = t.user ∧ s.password = t.password ∧ s.host = t.host ∧ s.port = t.port ∧
    s.database = t.database

/-- The boundaries in the addresses of two settings fall in the same places. -/
def SameBoundaries (s t : Settings) : Prop :=
  s.user.length = t.user.length ∧ s.password.length = t.password.length ∧
    s.host.length = t.host.length

/-- The address behind the at sign. -/
def target (s : Settings) : List Char :=
  s.host.toList ++ ':' :: ((Whole.text s.port).toList ++ '/' :: s.database.toList)

theorem toList_databaseUrl (s : Settings) : s.databaseUrl.toList =
    "postgresql+asyncpg://".toList ++
      (s.user.toList ++ ':' :: (s.password.toList ++ '@' :: s.target)) := by
  have hcolon : ":".toList = [':'] := rfl
  have hat : "@".toList = ['@'] := rfl
  have hslash : "/".toList = ['/'] := rfl
  unfold databaseUrl target
  -- nothing is to be computed from the scheme
  generalize "postgresql+asyncpg://" = scheme
  simp only [String.toList_append, hcolon, hat, hslash, List.append_assoc, List.cons_append,
    List.nil_append]

theorem sameUrl_iff : SameUrl s t ↔ s.user.toList ++ ':' :: (s.password.toList ++ '@' :: s.target) =
    t.user.toList ++ ':' :: (t.password.toList ++ '@' :: t.target) := by
  constructor
  · intro h
    have hlist := congrArg String.toList h
    rw [toList_databaseUrl, toList_databaseUrl] at hlist
    exact List.append_cancel_left hlist
  · intro h
    apply String.toList_injective
    rw [toList_databaseUrl, toList_databaseUrl, h]

/-- **Of two settings with one address, the boundaries decide.** -/
theorem SameUrl.sameConnection_iff (h : SameUrl s t) : SameConnection s t ↔ SameBoundaries s t := by
  constructor
  · intro hsame
    obtain ⟨huser, hpassword, hhost, -, -⟩ := hsame
    exact ⟨by rw [huser], by rw [hpassword], by rw [hhost]⟩
  · intro hboundaries
    obtain ⟨huser, hpassword, hhost⟩ := hboundaries
    have hlist := sameUrl_iff.mp h
    obtain ⟨husers, hlist⟩ := List.append_inj hlist (by rw [String.length_toList, String.length_toList, huser])
    obtain ⟨hpasswords, hlist⟩ :=
      List.append_inj (List.tail_eq_of_cons_eq hlist) (by rw [String.length_toList, String.length_toList, hpassword])
    obtain ⟨hhosts, hlist⟩ :=
      List.append_inj (List.tail_eq_of_cons_eq hlist) (by rw [String.length_toList, String.length_toList, hhost])
    obtain ⟨hports, hdatabases⟩ := Text.append_sep_inj_left (Whole.slash_notMem_text s.port)
      (Whole.slash_notMem_text t.port) (List.tail_eq_of_cons_eq hlist)
    exact ⟨String.toList_injective husers, String.toList_injective hpasswords,
      String.toList_injective hhosts, Whole.text_injective (String.toList_injective hports),
      String.toList_injective hdatabases⟩

/-! ### Addresses of their own -/

/-- The boundaries in the address of a setting are the only ones that can be seen in it. -/
structure BoundariesShow (s : Settings) : Prop where
  user : ':' ∉ s.user.toList
  password : ':' ∉ s.password.toList
  credentials : '@' ∉ s.password.toList
  host : '@' ∉ s.host.toList
  hostPort : ¬ HoldsPort s.host.toList
  databasePort : ¬ HoldsPort s.database.toList

/-- No setting with another connection has the address of this one. -/
def Unique (s : Settings) : Prop :=
  ∀ t, SameUrl s t → SameConnection s t

/-- If the boundaries show, no at sign but the one of the setting stands in front of a target. -/
theorem BoundariesShow.target_ne (h : s.BoundariesShow) {as : List Char} :
    s.target ≠ as ++ '@' :: t.target := by
  intro hs
  have hlist : s.host.toList ++ ':' :: ((Whole.text s.port).toList ++ '/' :: s.database.toList) =
      (as ++ '@' :: t.host.toList) ++
        ':' :: ((Whole.text t.port).toList ++ '/' :: t.database.toList) := by
    rw [List.append_assoc]
    exact hs
  obtain ⟨hhost, -, -⟩ := target_inj h.hostPort h.databasePort hlist
  exact h.host (by rw [hhost]; simp)

theorem BoundariesShow.unique (h : s.BoundariesShow) : s.Unique := by
  intro t hurl
  have hlist := sameUrl_iff.mp hurl
  obtain ⟨as, huser, hrest⟩ := Text.exists_append_of_notMem h.user hlist
  cases as with
  | cons a as =>
    -- the colon of the other one stands further on, behind the at sign of ours
    have htail := List.tail_eq_of_cons_eq hrest
    obtain ⟨bs, -, hbs⟩ := Text.exists_append_of_notMem h.password htail
    cases bs with
    | nil => exact absurd (List.head_eq_of_cons_eq hbs) (by decide)
    | cons b bs =>
      have htarget : s.target = (bs ++ ':' :: t.password.toList) ++ '@' :: t.target := by
        rw [List.append_assoc]
        exact List.tail_eq_of_cons_eq hbs
      exact (h.target_ne htarget).elim
  | nil =>
    have htail := List.tail_eq_of_cons_eq hrest
    obtain ⟨bs, hpassword, hbs⟩ := Text.exists_append_of_notMem h.credentials htail
    cases bs with
    | cons b bs => exact (h.target_ne (List.tail_eq_of_cons_eq hbs)).elim
    | nil =>
      obtain ⟨hhost, hport, hdatabase⟩ :=
        target_inj h.hostPort h.databasePort (List.tail_eq_of_cons_eq hbs)
      rw [List.append_nil] at huser hpassword
      exact ⟨String.toList_injective huser.symm, String.toList_injective hpassword.symm,
        String.toList_injective hhost, hport, String.toList_injective hdatabase⟩

/-- The first colon of an address that is unique cannot be taken for another one. -/
theorem Unique.user_eq (h : s.Unique) (us ps : List Char)
    (heq : us ++ ':' :: ps = s.user.toList ++ ':' :: s.password.toList) : s.user.toList = us := by
  have hurl : SameUrl s { s with user := String.ofList us, password := String.ofList ps } := by
    rw [sameUrl_iff]
    simpa [target] using congrArg (· ++ '@' :: s.target) heq.symm
  rw [(h _ hurl).1, String.toList_ofList]

/-- Nor can its at sign. -/
theorem Unique.password_eq (h : s.Unique) (ps hs : List Char)
    (heq : ps ++ '@' :: hs = s.password.toList ++ '@' :: s.host.toList) :
    s.password.toList = ps := by
  have hurl : SameUrl s { s with password := String.ofList ps, host := String.ofList hs } := by
    rw [sameUrl_iff]
    simpa [target] using
      congrArg (· ++ ':' :: ((Whole.text s.port).toList ++ '/' :: s.database.toList)) heq.symm
  rw [(h _ hurl).2.1, String.toList_ofList]

/-- Nor can its port. -/
theorem Unique.host_eq (h : s.Unique) (hs ds : List Char) (n : ℤ)
    (heq : hs ++ ':' :: ((Whole.text n).toList ++ '/' :: ds) = s.target) : s.host.toList = hs := by
  have hurl : SameUrl s
      { s with host := String.ofList hs, port := n, database := String.ofList ds } := by
    rw [sameUrl_iff]
    simpa [target] using heq.symm
  rw [(h _ hurl).2.2.1, String.toList_ofList]

theorem Unique.boundariesShow (h : s.Unique) : s.BoundariesShow where
  user := by
    intro hmem
    obtain ⟨as, bs, hsplit⟩ := List.append_of_mem hmem
    have huser := h.user_eq as (bs ++ ':' :: s.password.toList) (by simp [hsplit])
    simp [hsplit] at huser
  password := by
    intro hmem
    obtain ⟨as, bs, hsplit⟩ := List.append_of_mem hmem
    have huser := h.user_eq (s.user.toList ++ ':' :: as) bs (by simp [hsplit])
    simp at huser
  credentials := by
    intro hmem
    obtain ⟨as, bs, hsplit⟩ := List.append_of_mem hmem
    have hpassword := h.password_eq as (bs ++ '@' :: s.host.toList) (by simp [hsplit])
    simp [hsplit] at hpassword
  host := by
    intro hmem
    obtain ⟨as, bs, hsplit⟩ := List.append_of_mem hmem
    have hpassword := h.password_eq (s.password.toList ++ '@' :: as) bs (by simp [hsplit])
    simp at hpassword
  hostPort := by
    intro hport
    obtain ⟨n, as, bs, hsplit⟩ := hport
    have hhost := h.host_eq as
      (bs ++ ':' :: ((Whole.text s.port).toList ++ '/' :: s.database.toList)) n (by simp [target, ← hsplit])
    simp [← hsplit] at hhost
  databasePort := by
    intro hport
    obtain ⟨n, as, bs, hsplit⟩ := hport
    have hhost := h.host_eq (s.host.toList ++ ':' :: ((Whole.text s.port).toList ++ '/' :: as))
      bs n (by simp [target, ← hsplit])
    simp at hhost

/-- **The address of a setting is its own exactly if its boundaries show.** -/
theorem unique_iff_boundariesShow : s.Unique ↔ s.BoundariesShow :=
  ⟨Unique.boundariesShow, BoundariesShow.unique⟩

/-- **What the address tells of the connection.** Every setting is the one that its members are
accepted as. Of two settings with one address, those with the same boundaries lead to one connection,
and no others. And among all settings that are accepted, whatever they are read from, the address of
a setting belongs to one connection exactly if its boundaries show. -/
theorem connection_of_url_iff (s : Settings) :
    (∃ ms, s.toJson = .obj ms ∧ check [] ms = .ok s) ∧
      (∀ t, SameUrl s t → (SameConnection s t ↔ SameBoundaries s t)) ∧
      ((∀ environment arguments t, check environment arguments = .ok t → SameUrl s t →
          SameConnection s t) ↔ s.BoundariesShow) := by
  refine ⟨⟨s.members, rfl, check_members s⟩, fun t => SameUrl.sameConnection_iff, ?_⟩
  rw [← unique_iff_boundariesShow]
  constructor
  · intro h t
    exact h [] t.members t (check_members t)
  · intro h _ _ t _
    exact h t

/-- A colon in a password can be taken for the one behind the user: two settings that are accepted have
one address and lead to different connections. -/
theorem sameUrl_of_distinct_passwords :
    ∃ s t : Settings,
      check [] [("db_user", .str "a"), ("db_password", .str "b:c")] = .ok s ∧
      check [] [("db_user", .str "a:b"), ("db_password", .str "c")] = .ok t ∧
      s.databaseUrl = "postgresql+asyncpg://a:b:c@localhost:54377/tokenindexer" ∧
      SameUrl s t ∧ ¬ SameConnection s t := by
  refine ⟨⟨"localhost", 54377, "a", "b:c", "tokenindexer", true⟩,
    ⟨"localhost", 54377, "a:b", "c", "tokenindexer", true⟩, ?_, ?_, by decide, ?_, ?_⟩
  · exact check_of_names (by simp [names]) rfl
  · exact check_of_names (by simp [names]) rfl
  · show databaseUrl _ = databaseUrl _
    decide
  · intro hsame
    exact absurd hsame.1 (by decide)

end Settings
end TokenLedger

import PacketLog.Proofs.Leaves

/-!
# Proofs — KindPrecedence

Which entry of a table of toggles decides a kind.

A kind may stand in a table under several names, which differ in the case of letters.  Of these the
last one decides, in the order of the names.  When a table is entered over another, an entry
replaces what stands under the same name only, so that an entry of the lower table may come to
stand after it.

* `KindTable.resolve_valid`: the flags a table describes, one by one.
* `KindTable.not_lt_of_small`: no name of a kind comes later than the one in small letters.
* `PolicyLayer.kinds_decided`: the upper of two layers decides a kind that it names, unless the
  lower one names it later.
-/

namespace PacketLog

/-! ### Small letters -/

namespace Text

theorem not_toLower_lt (c : Char) : ¬c.toLower < c := by
  intro h
  unfold Char.toLower at h
  split at h
  · next hc =>
      have hz : c.val.toNat ≤ 90 := UInt32.le_iff_toNat_le.1 hc.2
      have hsum : c.val.toNat + 32 < 2 ^ 32 :=
        Nat.lt_of_le_of_lt (Nat.add_le_add_right hz 32) (by decide)
      have hlt : (c.val + 32).toNat < c.val.toNat := UInt32.lt_iff_toNat_lt.1 h
      have hadd : (c.val + 32).toNat = c.val.toNat + 32 := by
        rw [UInt32.toNat_add]
        exact Nat.mod_eq_of_lt hsum
      rw [hadd] at hlt
      exact Nat.not_lt.2 (Nat.le_add_right _ _) hlt
  · exact Char.lt_irrefl c h

/-- A text does not become less by making its letters small. -/
theorem not_map_toLower_lt (cs : List Char) : ¬cs.map Char.toLower < cs := by
  induction cs with
  | nil =>
      intro h
      cases h
  | cons c cs ih =>
      intro h
      rw [List.map_cons, List.cons_lt_cons_iff] at h
      rcases h with h | ⟨-, h⟩
      · exact not_toLower_lt c h
      · exact ih h

end Text

theorem PacketKind.sameLetters_of_ofName? {kind : PacketKind} {n : String}
    (h : PacketKind.ofName? n = some kind) : Text.sameLetters kind.name n = true := by
  unfold ofName? at h
  have hs := List.find?_some h
  exact hs

namespace Config

namespace KindTable

/-- **No name of a kind comes later than the one in small letters.** -/
theorem not_lt_of_small {name n : String} {kind : PacketKind} (hs : Text.lowered name = name)
    (hname : PacketKind.ofName? name = some kind) (hn : PacketKind.ofName? n = some kind) :
    ¬name < n := by
  have hsmall : name.toList.map Char.toLower = name.toList := by
    have h := congrArg String.toList hs
    rwa [Text.lowered, String.toList_ofList] at h
  have heq : n.toList.map Char.toLower = name.toList := by
    rw [← Text.sameLetters_iff.1 (PacketKind.sameLetters_of_ofName? hn), ← hsmall]
    exact Text.sameLetters_iff.1 (PacketKind.sameLetters_of_ofName? hname)
  rw [String.lt_iff, ← heq]
  exact Text.not_map_toLower_lt n.toList

/-! ### The flags of one table -/

section Flags

variable {kind : PacketKind} {dir : Direction}

/-- Every name in the table is that of a kind. -/
def Valid (t : KindTable) : Prop := ∀ e ∈ t, ∃ kind, PacketKind.ofName? e.1 = some kind

/-- What an entry says on a kind in a direction. -/
def entryFlag? (kind : PacketKind) (dir : Direction) (e : String × KindToggle) : Option Bool :=
  if PacketKind.ofName? e.1 = some kind then e.2.sets? dir else none

/-- What the last entry says that says anything on a kind in a direction. -/
def flag? (kind : PacketKind) (dir : Direction) : KindTable → Option Bool
  | []     => none
  | e :: t => (flag? kind dir t).or (entryFlag? kind dir e)

theorem allows_apply_entry {name : String} {toggle : KindToggle} {k : PacketKind}
    (hk : PacketKind.ofName? name = some k) (flags : KindFlags) :
    (flags.apply k toggle).allows kind dir =
      (entryFlag? kind dir (name, toggle)).getD (flags.allows kind dir) := by
  rw [KindFlags.allows_apply, entryFlag?, hk]
  by_cases h : kind = k
  · rw [if_pos h, if_pos (congrArg some h.symm)]
  · rw [if_neg h, if_neg fun he => h (Option.some.inj he).symm]
    rfl

/-- **A table of names of kinds resolves.**  The flag of a kind is what the last entry says that
says anything on it. -/
theorem resolve_valid {t : KindTable} (h : t.Valid) (flags : KindFlags) :
    ∃ r, resolveKinds t flags = .ok r ∧
      ∀ kind dir, r.allows kind dir = (t.flag? kind dir).getD (flags.allows kind dir) := by
  induction t generalizing flags with
  | nil => exact ⟨flags, rfl, fun _ _ => rfl⟩
  | cons e t ih =>
      obtain ⟨name, toggle⟩ := e
      obtain ⟨⟨k, hk⟩, ht⟩ := List.forall_mem_cons.1 h
      obtain ⟨r, hr, hallows⟩ := ih ht (flags.apply k toggle)
      refine ⟨r, ?_, fun kind dir => ?_⟩
      · unfold resolveKinds
        rw [hk]
        exact hr
      · rw [hallows, allows_apply_entry hk, flag?]
        cases flag? kind dir t with
        | none => rfl
        | some b => rfl

/-- Entries for other kinds say nothing. -/
theorem flag?_eq_none {t : KindTable}
    (h : ∀ e ∈ t, PacketKind.ofName? e.1 = some kind → e.2.sets? dir = none) :
    t.flag? kind dir = none := by
  induction t with
  | nil => rfl
  | cons e t ih =>
      obtain ⟨he, ht⟩ := List.forall_mem_cons.1 h
      rw [flag?, ih ht, Option.none_or, entryFlag?]
      by_cases hk : PacketKind.ofName? e.1 = some kind
      · rw [if_pos hk]
        exact he hk
      · rw [if_neg hk]

end Flags

/-! ### Parts of a table -/

section Parts

variable {t : KindTable} {e : String × KindToggle} {p : String → Prop} [DecidablePred p]

/-- The entries under the names with a property. -/
def part (p : String → Prop) [DecidablePred p] (t : KindTable) : KindTable :=
  t.filter fun e => p e.1

theorem part_cons_of_pos (h : p e.1) : part p (e :: t) = e :: part p t :=
  List.filter_cons_of_pos (decide_eq_true h)

theorem part_cons_of_neg (h : ¬p e.1) : part p (e :: t) = part p t :=
  List.filter_cons_of_neg fun hd => h (of_decide_eq_true hd)

theorem part_eq_self (h : ∀ e ∈ t, p e.1) : t.part p = t :=
  List.filter_eq_self.2 fun e he => decide_eq_true (h e he)

theorem Ascending.part (h : t.Ascending) (p : String → Prop) [DecidablePred p] :
    (t.part p).Ascending :=
  h.filter _

theorem lookup_part (n : String) : (t.part p).lookup n = if p n then t.lookup n else none := by
  induction t with
  | nil =>
      by_cases h : p n
      · rw [if_pos h]
        rfl
      · rw [if_neg h]
        rfl
  | cons e t ih =>
      obtain ⟨m, v⟩ := e
      by_cases hm : n = m
      · subst hm
        by_cases h : p n
        · rw [part_cons_of_pos h, if_pos h, lookup_cons_self, lookup_cons_self]
        · rw [part_cons_of_neg h, ih, if_neg h, if_neg h]
      · rw [lookup_cons_ne hm, ← ih]
        by_cases h : p m
        · rw [part_cons_of_pos h, lookup_cons_ne hm]
        · rw [part_cons_of_neg h]

/-- The flag of a kind depends on the entries under its names alone. -/
theorem flag?_part (kind : PacketKind) (dir : Direction) (t : KindTable) :
    (t.part fun n => PacketKind.ofName? n = some kind).flag? kind dir = t.flag? kind dir := by
  induction t with
  | nil => rfl
  | cons e t ih =>
      by_cases h : PacketKind.ofName? e.1 = some kind
      · rw [part_cons_of_pos h, flag?, flag?, ih]
      · rw [part_cons_of_neg h, flag?, ih, entryFlag?, if_neg h, Option.or_none]

/-- Tables in which the same stands under the names of a kind give it the same flag. -/
theorem flag?_congr {s : KindTable} (hs : s.Ascending) (ht : t.Ascending) {kind : PacketKind}
    (h : ∀ n, PacketKind.ofName? n = some kind → s.lookup n = t.lookup n) (dir : Direction) :
    s.flag? kind dir = t.flag? kind dir := by
  rw [← flag?_part kind dir s, ← flag?_part kind dir t]
  refine congrArg (flag? kind dir) ((hs.part _).ext (ht.part _) fun n => ?_)
  rw [lookup_part, lookup_part]
  by_cases hn : PacketKind.ofName? n = some kind
  · rw [h n hn]
  · rw [if_neg hn, if_neg hn]

/-- The entries under the names after one. -/
def after (name : String) (t : KindTable) : KindTable := t.part (name < ·)

/-- No entry for a kind stands after the one in small letters. -/
theorem flag?_after_small {name : String} {kind : PacketKind} (hs : Text.lowered name = name)
    (hk : PacketKind.ofName? name = some kind) (dir : Direction) (t : KindTable) :
    (t.after name).flag? kind dir = none := by
  refine flag?_eq_none fun e he hek => ?_
  have hlt : name < e.1 := of_decide_eq_true (List.mem_filter.1 he).2
  exact absurd hlt (not_lt_of_small hs hk hek)

/-- An entry decides a kind if none does that stands after it. -/
theorem Ascending.flag?_eq (h : t.Ascending) {name : String} {toggle : KindToggle}
    {kind : PacketKind} {dir : Direction} {v : Bool} (hl : t.lookup name = some toggle)
    (hk : PacketKind.ofName? name = some kind) (hv : toggle.sets? dir = some v) :
    t.flag? kind dir = ((t.after name).flag? kind dir).or (some v) := by
  induction t with
  | nil => cases hl
  | cons e t ih =>
      obtain ⟨m, u⟩ := e
      obtain ⟨hm, ht⟩ := List.pairwise_cons.1 h
      unfold after at ih ⊢
      by_cases hn : name = m
      · subst hn
        obtain rfl : u = toggle := Option.some.inj (lookup_cons_self.symm.trans hl)
        rw [part_cons_of_neg (String.lt_irrefl name), part_eq_self hm, flag?, entryFlag?, if_pos hk,
          hv]
      · rw [lookup_cons_ne hn] at hl
        -- the entry stands further on, where all names are greater
        have hlt : ¬name < m := by
          intro hlt
          rw [lookup_eq_none fun e he => String.lt_trans hlt (hm e he)] at hl
          cases hl
        rw [part_cons_of_neg hlt, flag?, ih ht hl, Option.or_assoc, Option.some_or]

end Parts

/-! ### The flags of a table over another -/

section Overlaid

variable {lower upper : KindTable}

/-- The table names no kind twice. -/
def NamesOnce (t : KindTable) : Prop :=
  ∀ d ∈ t, ∀ e ∈ t, ∀ kind, PacketKind.ofName? d.1 = some kind →
    PacketKind.ofName? e.1 = some kind → d.1 = e.1

theorem mem_of_lookup {t : KindTable} {n : String} {v : KindToggle} (h : t.lookup n = some v) :
    (n, v) ∈ t := by
  induction t with
  | nil => cases h
  | cons e t ih =>
      obtain ⟨m, w⟩ := e
      by_cases hn : n = m
      · subst hn
        rw [lookup_cons_self] at h
        rw [Option.some.inj h]
        exact List.mem_cons_self
      · rw [lookup_cons_ne hn] at h
        exact List.mem_cons_of_mem _ (ih h)

theorem Valid.insertAll (hl : lower.Valid) (hu : upper.Valid) : (lower.insertAll upper).Valid := by
  unfold KindTable.insertAll
  induction upper generalizing lower with
  | nil => exact hl
  | cons e upper ih =>
      obtain ⟨he, hu⟩ := List.forall_mem_cons.1 hu
      refine ih (fun d hd => ?_) hu
      rcases mem_insert hd with rfl | hd
      · exact he
      · exact hl d hd

/-- After an entry of a table that names no kind twice only the table below names its kind. -/
theorem flag?_after_insertAll (hl : lower.Ascending) (hu : upper.Ascending) (once : upper.NamesOnce)
    {name : String} {toggle : KindToggle} (h : upper.lookup name = some toggle) {kind : PacketKind}
    (hk : PacketKind.ofName? name = some kind) (dir : Direction) :
    ((lower.insertAll upper).after name).flag? kind dir = (lower.after name).flag? kind dir := by
  refine flag?_congr ((hl.insertAll upper).part _) (hl.part _) (fun n hn => ?_) dir
  rw [lookup_part, lookup_part, lookup_insertAll lower hu]
  by_cases hlt : name < n
  · cases hun : upper.lookup n with
    | none => rw [Option.none_or]
    | some u =>
        -- the upper table has the kind under one name only, which is not after itself
        have heq : name = n :=
          once _ (mem_of_lookup h) _ (mem_of_lookup hun) kind hk hn
        exact absurd (heq ▸ hlt) (String.lt_irrefl n)
  · rw [if_neg hlt, if_neg hlt]

/-- A table that is entered over another decides a kind that it names, unless the table below names
it later. -/
theorem flag?_insertAll (hl : lower.Ascending) (hu : upper.Ascending) (once : upper.NamesOnce)
    {name : String} {toggle : KindToggle} (h : upper.lookup name = some toggle) {kind : PacketKind}
    (hk : PacketKind.ofName? name = some kind) {dir : Direction} {v : Bool}
    (hv : toggle.sets? dir = some v) :
    (lower.insertAll upper).flag? kind dir = ((lower.after name).flag? kind dir).or (some v) := by
  have hm : (lower.insertAll upper).lookup name = some toggle := by
    rw [lookup_insertAll lower hu, h, Option.some_or]
  rw [(hl.insertAll upper).flag?_eq hm hk hv, flag?_after_insertAll hl hu once h hk]

end Overlaid

end KindTable

/-! ### One layer over another -/

section Layers

theorem PolicyLayer.kinds_of_resolve {p : PolicyLayer} {s : PolicySettings}
    (h : p.resolve = .ok s) : resolveKinds (p.kinds.getD []) = .ok s.kinds := by
  unfold resolve at h
  obtain ⟨flags, hflags, h⟩ := bind_eq_ok h
  obtain ⟨_, -, h⟩ := bind_eq_ok h
  obtain ⟨_, -, h⟩ := bind_eq_ok h
  obtain ⟨_, -, h⟩ := bind_eq_ok h
  cases h
  exact hflags

variable {a b : PolicyLayer}

/-- **The upper of two layers decides a kind that it names, unless the lower one names it later.**
The flag is what the last entry of the lower layer says that stands after the name and says anything
on it.  If there is none, it is what the upper layer says.  So it is if the name is in small
letters. -/
theorem PolicyLayer.kinds_decided (ha : (a.kinds.getD []).Ascending)
    (hb : (b.kinds.getD []).Ascending) (va : (a.kinds.getD []).Valid)
    (vb : (b.kinds.getD []).Valid) (once : (b.kinds.getD []).NamesOnce) :
    ∃ flags, resolveKinds ((a.overlaid b).kinds.getD []) = .ok flags ∧
      (∀ s, (a.overlaid b).resolve = .ok s → s.kinds = flags) ∧
      ∀ name toggle kind dir v, (b.kinds.getD []).lookup name = some toggle →
        PacketKind.ofName? name = some kind → toggle.sets? dir = some v →
          flags.allows kind dir = (((a.kinds.getD []).after name).flag? kind dir).getD v ∧
          (Text.lowered name = name → flags.allows kind dir = v) := by
  -- what is resolved is the table of the upper layer entered over that of the lower one
  obtain ⟨flags, hflags, hallows⟩ := KindTable.resolve_valid (va.insertAll vb) (.uniform true)
  rw [← kinds_overlaid a hb] at hflags
  refine ⟨flags, hflags, ?_, ?_⟩
  · intro s hs
    exact Except.ok.inj ((kinds_of_resolve hs).symm.trans hflags)
  · intro name toggle kind dir v hname hk hv
    have hflag : flags.allows kind dir =
        (((a.kinds.getD []).after name).flag? kind dir).getD v := by
      rw [hallows, KindTable.flag?_insertAll ha hb once hname hk hv]
      cases ((a.kinds.getD []).after name).flag? kind dir with
      | none => rfl
      | some w => rfl
    refine ⟨hflag, fun hs => ?_⟩
    rw [hflag, KindTable.flag?_after_small hs hk]
    rfl

/-- A layer that sets one kind in both directions. -/
def PolicyLayer.setting (name : String) (v : Bool) : PolicyLayer :=
  { kinds := some [(name, .both v)] }

theorem PolicyLayer.ascending_setting (name : String) (v : Bool) :
    ((setting name v).kinds.getD []).Ascending :=
  List.pairwise_singleton _ _

theorem PolicyLayer.valid_setting {name : String} (kind : PacketKind)
    (h : PacketKind.ofName? name = some kind) (v : Bool) :
    ((setting name v).kinds.getD []).Valid :=
  List.forall_mem_singleton.2 ⟨kind, h⟩

theorem PolicyLayer.namesOnce_setting (name : String) (v : Bool) :
    ((setting name v).kinds.getD []).NamesOnce := by
  intro d hd e he _ _ _
  rw [List.mem_singleton.1 hd, List.mem_singleton.1 he]

/-- A name in small letters overrides one in capitals. -/
theorem PolicyLayer.kinds_decided_small :
    ∃ flags, flags.allows .publish .inbound = false ∧
      resolveKinds (((setting "PUBLISH" true).overlaid (setting "publish" false)).kinds.getD []) =
        .ok flags := by
  obtain ⟨flags, hflags, -, hdecided⟩ := kinds_decided (ascending_setting "PUBLISH" true)
    (ascending_setting "publish" false) (valid_setting .publish rfl true)
    (valid_setting .publish rfl false) (namesOnce_setting "publish" false)
  obtain ⟨-, hsmall⟩ :=
    hdecided "publish" (.both false) .publish .inbound false rfl rfl rfl
  exact ⟨flags, hsmall rfl, hflags⟩

/-- A name in capitals does not override one in small letters. -/
theorem PolicyLayer.kinds_not_decided_capitals :
    ¬ ∀ a b : PolicyLayer, (a.kinds.getD []).Ascending → (b.kinds.getD []).Ascending →
      (a.kinds.getD []).Valid → (b.kinds.getD []).Valid → (b.kinds.getD []).NamesOnce →
        ∀ s, (a.overlaid b).resolve = .ok s →
          ∀ name toggle kind dir v, (b.kinds.getD []).lookup name = some toggle →
            PacketKind.ofName? name = some kind → toggle.sets? dir = some v →
              s.kinds.allows kind dir = v := by
  intro h
  have hoff := h (setting "publish" true) (setting "PUBLISH" false) (ascending_setting _ _)
    (ascending_setting _ _) (valid_setting .publish rfl true) (valid_setting .publish rfl false)
    (namesOnce_setting _ _) _ rfl "PUBLISH" (.both false) .publish .inbound false rfl rfl rfl
  cases hoff

end Layers

end Config

end PacketLog

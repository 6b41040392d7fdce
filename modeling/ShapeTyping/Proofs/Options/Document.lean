import Mathlib
import ShapeTyping.Entries
import ShapeTyping.Options.Document
import ShapeTyping.Proofs.Json.Reader
/-! Options read from a document that names them, by any reader that obeys its laws. What each value
stands for is said without the reader. The options that are read are then the default ones with the
named ones put in their place, whatever the order and whatever else the document names. An option
that is named twice, or whose value stands for nothing, is never passed over. -/
namespace ShapeTyping.Options

/-! ## Words -/

/-- A text spells a word if it is the word in upper or lower case, with any white space around. -/
def Spells (text word : String) : Prop :=
  ∃ before body after : List Char, text.toList = before ++ body ++ after ∧
    (∀ c ∈ before, Text.isBlank c = true) ∧ (∀ c ∈ after, Text.isBlank c = true) ∧
    body.map Char.toLower = word.toList

theorem toLower_of_isBlank {c : Char} (h : Text.isBlank c = true) : c.toLower = c := by
  have hupper : ¬ (c.val ≥ 'A'.val ∧ c.val ≤ 'Z'.val) := by
    rintro ⟨hlow, hhigh⟩
    have hlow : 65 ≤ c.toNat := hlow
    have hhigh : c.toNat ≤ 90 := hhigh
    simp only [Text.isBlank, Bool.or_eq_true, Bool.and_eq_true, decide_eq_true_eq,
      beq_iff_eq] at h
    omega
  exact dif_neg hupper

theorem dropWhile_isBlank {blanks rest : List Char} (h : ∀ c ∈ blanks, Text.isBlank c = true)
    (hrest : ∀ c, rest.head? = some c → Text.isBlank c = false) :
    (blanks ++ rest).dropWhile Text.isBlank = rest := by
  rw [List.dropWhile_append_of_pos h]
  cases rest with
  | nil => rfl
  | cons c rest => exact List.dropWhile_cons_of_neg (by simp [hrest c rfl])

theorem toList_trim (text : String) :
    ∃ before after, text.toList = before ++ (Text.trim text).toList ++ after ∧
      (∀ c ∈ before, Text.isBlank c = true) ∧ ∀ c ∈ after, Text.isBlank c = true := by
  have htail := List.takeWhile_append_dropWhile (p := Text.isBlank)
    (l := (text.toList.dropWhile Text.isBlank).reverse)
  have hhead := List.takeWhile_append_dropWhile (p := Text.isBlank) (l := text.toList)
  refine ⟨text.toList.takeWhile Text.isBlank,
    ((text.toList.dropWhile Text.isBlank).reverse.takeWhile Text.isBlank).reverse, ?_,
    List.all_eq_true.mp List.all_takeWhile,
    fun c hc => List.all_eq_true.mp List.all_takeWhile c (List.mem_reverse.mp hc)⟩
  rw [Text.trim, String.toList_ofList, List.append_assoc, ← List.reverse_append, htail,
    List.reverse_reverse, hhead]

theorem trim_padded {text : String} {before body after : List Char}
    (h : text.toList = before ++ body ++ after) (hbefore : ∀ c ∈ before, Text.isBlank c = true)
    (hafter : ∀ c ∈ after, Text.isBlank c = true) (hne : body ≠ [])
    (hbody : ∀ c ∈ body, Text.isBlank c = false) : (Text.trim text).toList = body := by
  have hfront : (before ++ (body ++ after)).dropWhile Text.isBlank = body ++ after := by
    obtain ⟨first, rest, rfl⟩ := List.exists_cons_of_ne_nil hne
    refine dropWhile_isBlank hbefore fun c hc => ?_
    cases hc
    exact hbody first (List.mem_cons_self ..)
  have hback : (after.reverse ++ body.reverse).dropWhile Text.isBlank = body.reverse := by
    refine dropWhile_isBlank (fun c hc => hafter c (List.mem_reverse.mp hc)) fun c hc => ?_
    exact hbody c (List.mem_reverse.mp (List.mem_of_head? hc))
  rw [Text.trim, String.toList_ofList, h, List.append_assoc, hfront, List.reverse_append, hback,
    List.reverse_reverse]

/-- To trim and to put in lower case tells which word a text spells. -/
theorem lower_trim_eq_iff {text word : String} (hne : word.toList ≠ [])
    (hword : ∀ c ∈ word.toList, Text.isBlank c = false) :
    lower (Text.trim text) = word ↔ Spells text word := by
  rw [lower, ← String.toList_inj, String.toList_ofList]
  constructor
  · intro h
    obtain ⟨before, after, htext, hbefore, hafter⟩ := toList_trim text
    exact ⟨before, _, after, htext, hbefore, hafter, h⟩
  · rintro ⟨before, body, after, htext, hbefore, hafter, hbody⟩
    have hbodyNe : body ≠ [] := by
      rintro rfl
      exact hne hbody.symm
    have hnotBlank : ∀ c ∈ body, Text.isBlank c = false := by
      intro c hc
      rw [Bool.eq_false_iff]
      intro hblank
      have hmem : c ∈ word.toList := by
        rw [← hbody]
        exact List.mem_map.mpr ⟨c, hc, toLower_of_isBlank hblank⟩
      rw [hword c hmem] at hblank
      cases hblank
    rw [trim_padded htext hbefore hafter hbodyNe hnotBlank, hbody]

/-! ## What a value stands for -/

/-- The words for a flag that is on, and for one that is off. -/
def words : Bool → List String
  | true => ["true", "1", "yes", "on"]
  | false => ["false", "0", "no", "off"]

inductive IsFlag : Datum → Bool → Prop
  | bool (b : Bool) : IsFlag (.bool b) b
  | text {b : Bool} {text word : String} (h : word ∈ words b) (spells : Spells text word) :
      IsFlag (.text text) b

def varianceName : Variance → String
  | .equivalent => "equivalent"
  | .contravariant => "contravariant"
  | .bivariant => "bivariant"

inductive IsVariance : Datum → Variance → Prop
  | text (v : Variance) : IsVariance (.text (varianceName v)) v
  | tag (v : Variance) : IsVariance (.tag (varianceName v)) v

inductive IsDepth : Datum → Nat → Prop
  | natural {n : Nat} (range : n < 0x100000000) : IsDepth (.natural n) n

def Key.Denotes : (key : Key) → Datum → key.Setting → Prop
  | .parameterVariance => IsVariance
  | .maxDepth => IsDepth
  | .strictNullChecks => IsFlag
  | .exactOptionalPropertyTypes => IsFlag
  | .noUncheckedIndexedAccess => IsFlag
  | .verifyVariantShapes => IsFlag

def get (o : Options) : (key : Key) → key.Setting
  | .strictNullChecks => o.strictNullChecks
  | .parameterVariance => o.parameterVariance
  | .exactOptionalPropertyTypes => o.exactOptionalPropertyTypes
  | .noUncheckedIndexedAccess => o.noUncheckedIndexedAccess
  | .verifyVariantShapes => o.verifyVariantShapes
  | .maxDepth => o.maxDepth

theorem ext_get {a b : Options} (h : ∀ key, a.get key = b.get key) : a = b := by
  obtain ⟨a₁, a₂, a₃, a₄, a₅, a₆⟩ := a
  obtain ⟨b₁, b₂, b₃, b₄, b₅, b₆⟩ := b
  obtain rfl : a₁ = b₁ := h .strictNullChecks
  obtain rfl : a₂ = b₂ := h .parameterVariance
  obtain rfl : a₃ = b₃ := h .exactOptionalPropertyTypes
  obtain rfl : a₄ = b₄ := h .noUncheckedIndexedAccess
  obtain rfl : a₅ = b₅ := h .verifyVariantShapes
  obtain rfl : a₆ = b₆ := h .maxDepth
  rfl

@[simp] theorem get_put (key : Key) (value : key.Setting) (o : Options) :
    (put key value o).get key = value := by
  cases key <;> rfl

theorem get_put_of_ne {key other : Key} (h : other ≠ key) (value : key.Setting) (o : Options) :
    (put key value o).get other = o.get other := by
  cases key <;> cases other <;> first | rfl | exact absurd rfl h

/-! ## Reading one value -/

theorem words_plain (b : Bool) : ∀ word ∈ words b,
    word.toList ≠ [] ∧ ∀ c ∈ word.toList, Text.isBlank c = false := by
  cases b <;> simp [words, Text.isBlank]

theorem flagOfText?_eq_some_iff {text : String} {b : Bool} :
    flagOfText? text = some b ↔ ∃ word ∈ words b, Spells text word := by
  have hspells : ∀ b, ∀ word ∈ words b, lower (Text.trim text) = word ↔ Spells text word := by
    intro b word hword
    obtain ⟨hne, hplain⟩ := words_plain b word hword
    exact lower_trim_eq_iff hne hplain
  have hmem : ∀ b, lower (Text.trim text) ∈ words b ↔ ∃ word ∈ words b, Spells text word := by
    intro b
    constructor
    · intro h
      exact ⟨_, h, (hspells b _ h).mp rfl⟩
    · rintro ⟨word, hword, h⟩
      rwa [(hspells b word hword).mpr h]
  have hdisjoint : lower (Text.trim text) ∈ words true → lower (Text.trim text) ∉ words false := by
    have hwords : ∀ word ∈ words true, word ∉ words false := by decide
    exact hwords _
  rw [← hmem]
  unfold flagOfText?
  simp only [List.contains_iff_mem]
  show (if lower (Text.trim text) ∈ words true then some true
    else if lower (Text.trim text) ∈ words false then some false else none) = some b ↔ _
  cases b with
  | true =>
    split
    next h => exact iff_of_true rfl h
    next h =>
      split
      · exact iff_of_false (by decide) h
      · exact iff_of_false (by decide) h
  | false =>
    split
    next h => exact iff_of_false (by decide) (hdisjoint h)
    next =>
      split
      next h => exact iff_of_true rfl h
      next h => exact iff_of_false (by decide) h

theorem lookup_variances {name : String} {v : Variance} :
    variances.lookup name = some v ↔ name = varianceName v := by
  constructor
  · intro h
    have hmem := Entries.mem_of_lookup h
    simp only [variances, List.mem_cons, Prod.mk.injEq, List.not_mem_nil, or_false] at hmem
    rcases hmem with ⟨rfl, rfl⟩ | ⟨rfl, rfl⟩ | ⟨rfl, rfl⟩ <;> rfl
  · rintro rfl
    cases v <;> rfl

section
variable {ν ε : Type} {r : Reader ν ε} {view : Reader.View ν ε} {raw : ν}

theorem readFlag_eq_ok_iff (h : r.Lawful view) {b : Bool} :
    readFlag r raw = .ok b ↔ IsFlag (view.datum raw) b := by
  rw [readFlag, Outcome.bind_eq_ok]
  constructor
  · rintro ⟨x, hx, hflag⟩
    rw [h.boolOrText] at hx
    rw [hx]
    cases x with
    | inl b' =>
      cases hflag
      exact .bool b
    | inr text =>
      cases htext : flagOfText? text with
      | none => simp only [htext] at hflag; cases hflag
      | some b' =>
        simp only [htext] at hflag
        cases hflag
        obtain ⟨word, hword, hspells⟩ := flagOfText?_eq_some_iff.mp htext
        exact .text hword hspells
  · intro hflag
    generalize hd : view.datum raw = d at hflag
    cases hflag with
    | bool => exact ⟨.inl b, (h.boolOrText raw (.inl b)).mpr hd, rfl⟩
    | @text _ text word hword hspells =>
      refine ⟨.inr text, (h.boolOrText raw (.inr text)).mpr hd, ?_⟩
      simp only [flagOfText?_eq_some_iff.mpr ⟨word, hword, hspells⟩]
      rfl

theorem choice_variances_eq_ok_iff (h : r.Lawful view) {v : Variance} :
    r.choice variances raw = .ok v ↔ IsVariance (view.datum raw) v := by
  rw [h.choice]
  simp only [lookup_variances]
  constructor
  · rintro ⟨name, hd, rfl⟩
    rcases hd with hd | hd
    · exact hd ▸ .text v
    · exact hd ▸ .tag v
  · intro hv
    generalize hd : view.datum raw = d at hv
    cases hv with
    | text => exact ⟨_, .inl rfl, rfl⟩
    | tag => exact ⟨_, .inr rfl, rfl⟩

theorem word_eq_ok_iff (h : r.Lawful view) {n : Nat} :
    r.word raw = .ok n ↔ IsDepth (view.datum raw) n := by
  rw [h.word]
  constructor
  · rintro ⟨hd, range⟩
    exact hd ▸ .natural range
  · intro hn
    generalize hd : view.datum raw = d at hn
    cases hn with
    | natural range => exact ⟨rfl, range⟩

theorem read_eq_ok_iff (h : r.Lawful view) {key : Key} {value : key.Setting} :
    key.read r raw = .ok value ↔ key.Denotes (view.datum raw) value := by
  cases key with
  | parameterVariance => exact choice_variances_eq_ok_iff h
  | maxDepth => exact word_eq_ok_iff h
  | strictNullChecks | exactOptionalPropertyTypes | noUncheckedIndexedAccess
  | verifyVariantShapes => exact readFlag_eq_ok_iff h

theorem Key.Denotes.unique (h : r.Lawful view) {key : Key} {value value' : key.Setting}
    (hvalue : key.Denotes (view.datum raw) value) (hvalue' : key.Denotes (view.datum raw) value') :
    value = value' :=
  Except.ok.inj (((read_eq_ok_iff h).mpr hvalue).symm.trans ((read_eq_ok_iff h).mpr hvalue'))

/-! ## Fields -/

theorem Key.name_inj {key key' : Key} (h : key.name = key'.name) : key = key' := by
  cases key <;> cases key' <;> first | rfl | exact absurd h (by decide)

theorem slots_nodup (r : Reader ν ε) : ((slots r).map (·.name)).Nodup := by
  show (Key.all.map Key.name).Nodup
  decide

theorem slot_mem_slots (r : Reader ν ε) (key : Key) : key.slot r ∈ slots r :=
  List.mem_map_of_mem (by cases key <;> decide)

/-- A member is passed over, or it sets an option that no earlier one has set. -/
theorem member_eq_ok (h : r.Lawful view) (hraw : view.Occurs raw) {name : String}
    {visit visit' : view.Visit Options}
    (hmember : view.member (slots r) visit (name, raw) = .ok visit') :
    ((∀ key : Key, name ≠ key.name) ∧ visit' = visit) ∨
      ∃ (key : Key) (value : key.Setting), name = key.name ∧ ¬ view.Taken visit key.name ∧
        key.Denotes (view.datum raw) value ∧
        view.value visit' = put key value (view.value visit) ∧
        ∀ other, view.Taken visit' other ↔ other = key.name ∨ view.Taken visit other := by
  rcases h.member_eq_ok (slots_nodup r) hraw hmember with ⟨hname, rfl⟩ |
    ⟨slot, hslot, rfl, hfresh, change, hread, hvalue, htaken⟩
  · exact .inl ⟨fun key hkey => hname _ (slot_mem_slots r key) hkey.symm, rfl⟩
  · obtain ⟨key, -, rfl⟩ := List.mem_map.mp hslot
    obtain ⟨value, hkey, rfl⟩ := Outcome.map_eq_ok.mp hread
    exact .inr ⟨key, value, rfl, hfresh, (read_eq_ok_iff h).mp hkey, hvalue, htaken⟩

theorem exists_member (h : r.Lawful view) {key : Key} {value : key.Setting}
    (hvalue : key.Denotes (view.datum raw) value) {visit : view.Visit Options}
    (hfresh : ¬ view.Taken visit key.name) :
    ∃ visit', view.member (slots r) visit (key.name, raw) = .ok visit' ∧
      ∀ other, view.Taken visit' other ↔ other = key.name ∨ view.Taken visit other := by
  have hread : (key.slot r).read raw = .ok (put key value) :=
    Outcome.map_eq_ok.mpr ⟨value, (read_eq_ok_iff h).mpr hvalue, rfl⟩
  obtain ⟨visit', hvisit', -, htaken⟩ :=
    h.known (slots_nodup r) (slot_mem_slots r key) hfresh hread
  exact ⟨visit', hvisit', htaken⟩

end

/-! ## Reading the members of a document -/

section
variable {ν ε : Type}

/-- Each option is named at most once, with a value that stands for something. -/
structure Acceptable (view : Reader.View ν ε) (members : List (String × ν)) : Prop where
  once : ∀ key : Key, (members.map (·.1)).count key.name ≤ 1
  denotes : ∀ (key : Key) raw, (key.name, raw) ∈ members →
    ∃ value, key.Denotes (view.datum raw) value

/-- The options `o'` are as the members tell, and as in `o` where they tell nothing. -/
structure Overridden (view : Reader.View ν ε) (o : Options) (members : List (String × ν))
    (o' : Options) : Prop where
  given : ∀ (key : Key) raw, (key.name, raw) ∈ members →
    key.Denotes (view.datum raw) (o'.get key)
  kept : ∀ key : Key, key.name ∉ members.map (·.1) → o'.get key = o.get key

/-- What a reading that succeeds says of the members, where some options are taken. -/
structure ReadsAs (view : Reader.View ν ε) (o : Options) (taken : String → Prop)
    (members : List (String × ν)) (o' : Options) : Prop where
  untaken : ∀ key : Key, taken key.name → key.name ∉ members.map (·.1)
  acceptable : Acceptable view members
  overridden : Overridden view o members o'

variable {r : Reader ν ε} {view : Reader.View ν ε} {o o' : Options} {taken : String → Prop}
  {members members' : List (String × ν)}

theorem Overridden.unique (h : r.Lawful view) {a b : Options} (ha : Overridden view o members a)
    (hb : Overridden view o members b) : a = b := by
  apply ext_get
  intro key
  by_cases hkey : key.name ∈ members.map (·.1)
  · obtain ⟨⟨_, raw⟩, hmem, rfl⟩ := List.mem_map.mp hkey
    exact (ha.given key raw hmem).unique h (hb.given key raw hmem)
  · rw [ha.kept key hkey, hb.kept key hkey]

theorem Overridden.perm (h : Overridden view o members o') (hperm : members.Perm members') :
    Overridden view o members' o' :=
  ⟨fun key raw hmem => h.given key raw (hperm.mem_iff.mpr hmem),
    fun key hkey => h.kept key (mt (hperm.map _).mem_iff.mp hkey)⟩

theorem Acceptable.perm (h : Acceptable view members) (hperm : members.Perm members') :
    Acceptable view members' :=
  ⟨fun key => (hperm.map _).count_eq key.name ▸ h.once key,
    fun key raw hmem => h.denotes key raw (hperm.mem_iff.mpr hmem)⟩

section
variable {name : String} {raw : ν}

theorem acceptable_cons_of_unknown (hname : ∀ key : Key, name ≠ key.name) :
    Acceptable view ((name, raw) :: members) ↔ Acceptable view members := by
  have hcount : ∀ key : Key, (((name, raw) :: members).map (·.1)).count key.name =
      (members.map (·.1)).count key.name := by
    intro key
    rw [List.map_cons, List.count_cons_of_ne (hname key)]
  constructor
  · rintro ⟨once, denotes⟩
    exact ⟨fun key => hcount key ▸ once key,
      fun key raw' hmem => denotes key raw' (List.mem_cons_of_mem _ hmem)⟩
  · rintro ⟨once, denotes⟩
    refine ⟨fun key => (hcount key).symm ▸ once key, fun key raw' hmem => ?_⟩
    rcases List.mem_cons.mp hmem with h | h
    · exact absurd (congrArg Prod.fst h).symm (hname key)
    · exact denotes key raw' h

theorem acceptable_cons_of_key {key : Key} :
    Acceptable view ((key.name, raw) :: members) ↔
      (∃ value, key.Denotes (view.datum raw) value) ∧ key.name ∉ members.map (·.1) ∧
        Acceptable view members := by
  constructor
  · rintro ⟨once, denotes⟩
    simp only [List.map_cons] at once
    refine ⟨denotes key raw (List.mem_cons_self ..), ?_, fun key' => ?_, fun key' raw' hmem => ?_⟩
    · have honce := once key
      rw [List.count_cons_self] at honce
      exact List.count_eq_zero.mp (by omega)
    · exact Nat.le_trans List.count_le_count_cons (once key')
    · exact denotes key' raw' (List.mem_cons_of_mem _ hmem)
  · rintro ⟨hvalue, hlast, once, denotes⟩
    refine ⟨fun key' => ?_, fun key' raw' hmem => ?_⟩
    · rw [List.map_cons]
      by_cases hkey : key' = key
      · have hnone := List.count_eq_zero.mpr hlast
        rw [hkey, List.count_cons_self]
        omega
      · rw [List.count_cons_of_ne fun hname => hkey (Key.name_inj hname.symm)]
        exact once key'
    · rcases List.mem_cons.mp hmem with h | h
      · obtain ⟨hname, rfl⟩ := Prod.mk.inj h
        obtain rfl := Key.name_inj hname
        exact hvalue
      · exact denotes key' raw' h

theorem Overridden.cons_unknown (h : Overridden view o members o')
    (hname : ∀ key : Key, name ≠ key.name) : Overridden view o ((name, raw) :: members) o' := by
  refine ⟨fun key raw' hmem => ?_, fun key hkey => ?_⟩
  · rcases List.mem_cons.mp hmem with h' | h'
    · exact absurd (congrArg Prod.fst h').symm (hname key)
    · exact h.given key raw' h'
  · rw [List.map_cons, List.mem_cons, not_or] at hkey
    exact h.kept key hkey.2

/-- Where a key comes first, the rest of the members leaves it as it was put. -/
theorem Overridden.cons_key {key : Key} {value : key.Setting}
    (h : Overridden view (put key value o) members o') (hlast : key.name ∉ members.map (·.1))
    (hvalue : key.Denotes (view.datum raw) value) :
    Overridden view o ((key.name, raw) :: members) o' := by
  refine ⟨fun key' raw' hmem => ?_, fun key' hkey => ?_⟩
  · rcases List.mem_cons.mp hmem with h' | h'
    · obtain ⟨hname, rfl⟩ := Prod.mk.inj h'
      obtain rfl := Key.name_inj hname
      rwa [h.kept key' hlast, get_put]
    · exact h.given key' raw' h'
  · rw [List.map_cons, List.mem_cons, not_or] at hkey
    rw [h.kept key' hkey.2]
    refine get_put_of_ne ?_ value o
    rintro rfl
    exact hkey.1 rfl

theorem ReadsAs.cons_unknown (h : ReadsAs view o taken members o')
    (hname : ∀ key : Key, name ≠ key.name) : ReadsAs view o taken ((name, raw) :: members) o' where
  untaken key hkey := by
    rw [List.map_cons, List.mem_cons, not_or]
    exact ⟨(hname key).symm, h.untaken key hkey⟩
  acceptable := (acceptable_cons_of_unknown hname).mpr h.acceptable
  overridden := h.overridden.cons_unknown hname

theorem ReadsAs.cons_key {taken' : String → Prop} {key : Key} {value : key.Setting}
    (h : ReadsAs view (put key value o) taken' members o')
    (htaken : ∀ other, taken' other ↔ other = key.name ∨ taken other) (hfresh : ¬ taken key.name)
    (hvalue : key.Denotes (view.datum raw) value) :
    ReadsAs view o taken ((key.name, raw) :: members) o' := by
  have hlast : key.name ∉ members.map (·.1) := h.untaken key ((htaken _).mpr (.inl rfl))
  refine ⟨fun key' hkey => ?_, acceptable_cons_of_key.mpr ⟨⟨value, hvalue⟩, hlast, h.acceptable⟩,
    h.overridden.cons_key hlast hvalue⟩
  rw [List.map_cons, List.mem_cons, not_or]
  refine ⟨fun hname => ?_, h.untaken key' ((htaken _).mpr (.inr hkey))⟩
  rw [hname] at hkey
  exact hfresh hkey

end

theorem readsAs_of_foldlM (h : r.Lawful view) {visit visit' : view.Visit Options}
    (hraw : ∀ member ∈ members, view.Occurs member.2)
    (hvisit : members.foldlM (view.member (slots r)) visit = .ok visit') :
    ReadsAs view (view.value visit) (view.Taken visit) members (view.value visit') := by
  induction members generalizing visit with
  | nil =>
    rw [Outcome.pure_eq_ok.mp hvisit]
    exact ⟨fun _ _ => List.not_mem_nil, ⟨fun _ => Nat.zero_le _, nofun⟩, ⟨nofun, fun _ _ => rfl⟩⟩
  | cons member members ih =>
    obtain ⟨name, raw⟩ := member
    rw [List.forall_mem_cons] at hraw
    rw [List.foldlM_cons] at hvisit
    obtain ⟨next, hnext, hrest⟩ := Outcome.bind_eq_ok.mp hvisit
    have hreads := ih hraw.2 hrest
    rcases member_eq_ok h hraw.1 hnext with ⟨hname, rfl⟩ |
      ⟨key, value, rfl, hfresh, hdenotes, hvalue, htaken⟩
    · exact hreads.cons_unknown hname
    · rw [hvalue] at hreads
      exact hreads.cons_key htaken hfresh hdenotes

theorem exists_foldlM (h : r.Lawful view) {visit : view.Visit Options}
    (hraw : ∀ member ∈ members, view.Occurs member.2) (hmembers : Acceptable view members)
    (huntaken : ∀ key : Key, view.Taken visit key.name → key.name ∉ members.map (·.1)) :
    ∃ visit', members.foldlM (view.member (slots r)) visit = .ok visit' := by
  induction members generalizing visit with
  | nil => exact ⟨visit, rfl⟩
  | cons member members ih =>
    obtain ⟨name, raw⟩ := member
    rw [List.forall_mem_cons] at hraw
    simp only [List.map_cons, List.mem_cons, not_or] at huntaken
    simp only [List.foldlM_cons, Outcome.bind_eq_ok]
    by_cases hname : ∀ key : Key, name ≠ key.name
    · have hskip : view.member (slots r) visit (name, raw) = .ok visit := by
        refine h.unknown hraw.1 (fun slot hslot => ?_) visit
        obtain ⟨key, -, rfl⟩ := List.mem_map.mp hslot
        exact (hname key).symm
      rw [acceptable_cons_of_unknown hname] at hmembers
      obtain ⟨visit', hvisit'⟩ := ih hraw.2 hmembers fun key hkey => (huntaken key hkey).2
      exact ⟨visit', visit, hskip, hvisit'⟩
    · obtain ⟨key, hkey⟩ := Classical.not_forall.mp hname
      obtain rfl : name = key.name := Classical.not_not.mp hkey
      obtain ⟨⟨value, hvalue⟩, hlast, hrest⟩ := acceptable_cons_of_key.mp hmembers
      have hfresh : ¬ view.Taken visit key.name := fun htaken => (huntaken key htaken).1 rfl
      obtain ⟨next, hnext, htaken⟩ := exists_member h hvalue hfresh
      have huntaken' : ∀ key' : Key, view.Taken next key'.name →
          key'.name ∉ members.map (·.1) := by
        intro key' hkey'
        rcases (htaken _).mp hkey' with hsame | hbefore
        · rwa [hsame]
        · exact (huntaken key' hbefore).2
      obtain ⟨visit', hvisit'⟩ := ih hraw.2 hrest huntaken'
      exact ⟨visit', next, hnext, hvisit'⟩

/-! ## Documents -/

theorem readsAs_of_ofMembers (h : r.Lawful view) (hraw : ∀ member ∈ members, view.Occurs member.2)
    (ho : view.ofMembers (slots r) o members = .ok o') :
    ReadsAs view o (fun _ => False) members o' := by
  obtain ⟨visit, hvisit, rfl⟩ := Outcome.map_eq_ok.mp ho
  have hreads := readsAs_of_foldlM h hraw hvisit
  rw [h.value_start] at hreads
  exact ⟨nofun, hreads.acceptable, hreads.overridden⟩

theorem exists_ofMembers (h : r.Lawful view) (hraw : ∀ member ∈ members, view.Occurs member.2)
    (hmembers : Acceptable view members) (o : Options) :
    ∃ o', view.ofMembers (slots r) o members = .ok o' := by
  have huntaken : ∀ key : Key, view.Taken (view.start o) key.name →
      key.name ∉ members.map (·.1) := fun key hkey => absurd hkey (h.not_taken_start o key.name)
  obtain ⟨visit, hvisit⟩ := exists_foldlM h hraw hmembers huntaken
  exact ⟨view.value visit, Outcome.map_eq_ok.mpr ⟨visit, hvisit, rfl⟩⟩

/-- A document that names each option at most once, and each with a value that stands for something,
gives the default options with just these put in their place. Other names do not matter, and
neither does the order. A document that names an option twice, or with a value that stands for
nothing, is refused. -/
theorem document_read_by_name (h : r.Lawful view) {text : String}
    (hread : view.members? text = some members) :
    (Acceptable view members →
      ∃ o, ofText r text = .ok o ∧ Overridden view {} members o ∧
        ∀ members', members.Perm members' → view.ofMembers (slots r) {} members' = .ok o ∧
          ∀ text', view.members? text' = some members' → ofText r text' = .ok o) ∧
    ((∃ key : Key, 2 ≤ (members.map (·.1)).count key.name) ∨
        (∃ (key : Key) (raw : ν), (key.name, raw) ∈ members ∧
          ∀ value, ¬ key.Denotes (view.datum raw) value) →
      ∃ e, ofText r text = .error e) := by
  have hraw : ∀ member ∈ members, view.Occurs member.2 := fun member hmember =>
    ⟨text, members, member.1, hread, hmember⟩
  have htext : ∀ {text members}, view.members? text = some members →
      ofText r text = view.ofMembers (slots r) {} members := fun hread =>
    h.record "CheckerOptions" (slots r) {} hread
  constructor
  · intro hacceptable
    have hall : ∀ members', members.Perm members' → ∃ o,
        view.ofMembers (slots r) {} members' = .ok o ∧ Overridden view {} members o := by
      intro members' hperm
      have hraw' : ∀ member ∈ members', view.Occurs member.2 := fun member hmember =>
        hraw member (hperm.mem_iff.mpr hmember)
      obtain ⟨o, ho⟩ := exists_ofMembers h hraw' (hacceptable.perm hperm) {}
      exact ⟨o, ho, (readsAs_of_ofMembers h hraw' ho).overridden.perm hperm.symm⟩
    obtain ⟨o, ho, hoverridden⟩ := hall members (.refl _)
    refine ⟨o, (htext hread).trans ho, hoverridden, fun members' hperm => ?_⟩
    obtain ⟨o', ho', hoverridden'⟩ := hall members' hperm
    obtain rfl := hoverridden.unique h hoverridden'
    exact ⟨ho', fun text' hread' => (htext hread').trans ho'⟩
  · intro hfaulty
    cases hresult : ofText r text with
    | error e => exact ⟨e, rfl⟩
    | ok o =>
      have hacceptable :=
        (readsAs_of_ofMembers h hraw ((htext hread).symm.trans hresult)).acceptable
      rcases hfaulty with ⟨key, htwice⟩ | ⟨key, raw, hmem, hnone⟩
      · have := hacceptable.once key
        omega
      · obtain ⟨value, hvalue⟩ := hacceptable.denotes key raw hmem
        exact absurd hvalue (hnone value)

end

/-- A JSON document with an unknown name, a flag in mixed case between blanks and a variance named
by a key, also read from its end, and a document with one option twice. -/
theorem document_read_by_name_editor :
    let text := "\x7b\"editor\": [0], \"maxDepth\": 8, \"strictNullChecks\": \" Off\\n\", " ++
      "\"parameterVariance\": \x7b\"bivariant\": null\x7d\x7d"
    let members : List (String × Json) :=
      [("editor", .array [.number ⟨false, 0, 0, true⟩] true),
        ("maxDepth", .number ⟨false, 8, 0, true⟩),
        ("strictNullChecks", .string (some " Off\n")),
        ("parameterVariance", .object [(some "bivariant", .null)] true)]
    let o : Options :=
      { strictNullChecks := false, parameterVariance := .bivariant, maxDepth := 8 }
    Json.reader.Lawful Json.view ∧ Json.view.members? text = some members ∧
      ofText Json.reader text = .ok o ∧
      Json.view.ofMembers (slots Json.reader) {} members.reverse = .ok o ∧
      ∃ e, ofText Json.reader "\x7b\"maxDepth\": 8, \"editor\": 0, \"maxDepth\": 8\x7d" =
        .error e := by
  intro text members o
  have hread : Json.view.members? text = some members := by
    subst text members
    cbv
  have hoverridden : Overridden Json.view {} members o := by
    have hoff : Spells " Off\n" "off" :=
      ⟨[' '], ['O', 'f', 'f'], ['\n'], rfl, by simp [Text.isBlank], by simp [Text.isBlank], rfl⟩
    refine ⟨fun key raw hmem => ?_, fun key hkey => ?_⟩
    · cases key <;> simp [members, Key.name] at hmem <;> subst hmem
      · exact IsFlag.text (by decide) hoff
      · exact IsVariance.tag .bivariant
      · exact IsDepth.natural (by decide)
    · cases key <;> first | rfl | exact absurd (by decide) hkey
  have hacceptable : Acceptable Json.view members :=
    ⟨fun key => by cases key <;> decide,
      fun key raw hmem => ⟨_, hoverridden.given key raw hmem⟩⟩
  have htwice : Json.view.members? "\x7b\"maxDepth\": 8, \"editor\": 0, \"maxDepth\": 8\x7d" =
      some [("maxDepth", .number ⟨false, 8, 0, true⟩), ("editor", .number ⟨false, 0, 0, true⟩),
        ("maxDepth", .number ⟨false, 8, 0, true⟩)] := by
    cbv
  have hlawful := Json.lawful_reader
  obtain ⟨o', ho', hoverridden', hperm⟩ := (document_read_by_name hlawful hread).1 hacceptable
  obtain rfl := hoverridden.unique hlawful hoverridden'
  exact ⟨hlawful, hread, ho', (hperm _ (List.reverse_perm members).symm).1,
    (document_read_by_name hlawful htwice).2 (.inl ⟨.maxDepth, by decide⟩)⟩

end ShapeTyping.Options

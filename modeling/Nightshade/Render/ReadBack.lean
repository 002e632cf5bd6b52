import Mathlib
import Nightshade.Foundation.UnitSyntax
import Nightshade.Render.Complete

/-! Rendered files as the programs they are for read them, and which values come through that as
they are. -/
namespace Nightshade.Render
open Foundation Foundation.UnitSyntax Schema Schema.Shipped

/-- The settings of a file. -/
def readBack (text : String) : List Entry := readLines (text.toList.splitOn '\n')

namespace Ini

/-- What has been laid out so far: settings in sections, and the section the next one goes into. -/
structure Lays (ini : Ini) (sec : String) (es : List Entry) : Prop where
  lines : ∃ ls last, ini.out.toList = unlines ls ∧ (∀ l ∈ ls, '\n' ∉ l) ∧ Laid ls last es ∧
    ini.pending.getD last = sec
  pending : ∀ name ∈ ini.pending, Word name

variable {ini : Ini} {sec : String} {es : List Entry}

/-- A file reads back as what was laid out just where every value starts and ends on its own line. -/
theorem Lays.reads_iff (h : Lays ini sec es) :
    readBack ini.out = es ↔ ∀ e ∈ es, Closed e.2 ∧ Flush e.2 := by
  obtain ⟨ls,last,hout,hlines,hlaid,-⟩ := h.lines
  rw [readBack,hout,splitOn_unlines hlines]
  exact hlaid.empty.read_iff

theorem laid_comments (ls : List (List Char)) (h : ∀ l ∈ ls, ∃ m, l = '#'::m) : Laid ls "" [] := by
  induction ls using List.reverseRecOn with
  | nil => exact .nil
  | append_singleton ls l ih =>
    obtain ⟨m,rfl⟩ := h l (by simp)
    exact (ih (fun k hk => h k (List.mem_append_left _ hk))).comment m

theorem lays_new : Lays new "" [] where
  lines := ⟨headerLines.map String.toList,"",header_lines,fun l hl => not_newline (header_plain l hl),
    laid_comments _ header_comments,rfl⟩
  pending := by simp [new]

theorem Lays.inSection (h : Lays ini sec es) {name : String} (hname : Word name) :
    Lays (ini.inSection name) name es where
  lines := by
    obtain ⟨ls,last,hout,hlines,hlaid,-⟩ := h.lines
    exact ⟨ls,last,hout,hlines,hlaid,rfl⟩
  pending := by
    intro other hother
    cases hother
    exact hname

theorem Lays.key (h : Lays ini sec es) {key value : String} (hkey : Word key) (hvalue : Plain value.toList) :
    Lays (ini.key key value) sec (es ++ [((sec,key),value)]) where
  lines := by
    obtain ⟨ls,last,hout,hlines,hlaid,hsec⟩ := h.lines
    have hassignment := not_newline (plain_assignment hkey hvalue)
    cases hpending : ini.pending with
    | none =>
      rw [hpending,Option.getD_none] at hsec
      subst hsec
      refine ⟨ls ++ [key.toList ++ '='::value.toList],last,?_,?_,hlaid.setting hkey value,rfl⟩
      · simp [Ini.key,hpending,hout,unlines]
      · intro l hl
        obtain hl | hl := List.mem_append.mp hl
        · exact hlines l hl
        · rw [List.mem_singleton.mp hl]
          exact hassignment
    | some name =>
      have hname := h.pending name hpending
      rw [hpending,Option.getD_some] at hsec
      subst hsec
      refine ⟨ls ++ [[]] ++ ['['::name.toList ++ [']']] ++ [key.toList ++ '='::value.toList],name,?_,?_,
        (hlaid.empty.heading hname).setting hkey value,rfl⟩
      · simp [Ini.key,hpending,hout,unlines]
      · intro l hl
        simp only [List.mem_append,List.mem_singleton] at hl
        obtain ((hl | rfl) | rfl) | rfl := hl
        · exact hlines l hl
        · exact fun h => by cases h
        · exact not_newline (plain_header hname)
        · exact hassignment
  pending := by
    intro name hname
    cases hname

end Ini

namespace Networkd

theorem lays_each {ini : Ini} {sec key : String} {es : List Entry} {values : List String} (h : ini.Lays sec es)
    (hkey : Word key) (hvalues : ∀ v ∈ values, Plain v.toList) :
    (ini.each key values).Lays sec (es ++ under sec key values) := by
  induction values generalizing ini es with
  | nil => simpa [Ini.each,under] using h
  | cons v values ih =>
    have hfirst := h.key hkey (hvalues v List.mem_cons_self)
    have hrest := ih hfirst (fun w hw => hvalues w (List.mem_cons_of_mem _ hw))
    rw [List.append_assoc] at hrest
    exact hrest

theorem lays_ite {ini : Ini} {sec key value : String} {es : List Entry} (h : ini.Lays sec es) (c : Prop) [Decidable c]
    (hkey : Word key) (hvalue : Plain value.toList) :
    (if c then ini.key key value else ini).Lays sec (es ++ if c then under sec key [value] else []) := by
  split_ifs
  · exact h.key hkey hvalue
  · simpa using h

/-! ### What the files are meant to say -/

/-- The settings of a `.network`, in order. -/
def networkSettings (name : String) (node : Node) (attachments : Attachments) : List Entry :=
  under "Match" "Name" [name] ++ under "Link" "MTUBytes" (leaf node "mtu").toList ++
  (if flag node "disable" then under "Link" "ActivationPolicy" ["always-down"] else []) ++
  under "Network" "Description" (leaf node "description").toList ++
  (if "dhcp" ∈ list node "address" then under "Network" "DHCP" ["yes"] else []) ++
  under "Network" "Address" ((list node "address").filter (· ≠ "dhcp")) ++
  ((attachments.master.get? name).toList.flatMap (fun m => under "Network" m.1 [m.2])) ++
  under "Network" "VLAN" ((attachments.vlans.get? name).getD []) ++
  under "Network" "VXLAN" ((attachments.vxlans.get? name).getD [])

/-- The settings of a `.netdev`. -/
def netdevSettings (device name : String) (node : Node) : List Entry :=
  under "NetDev" "Name" [name] ++ under "NetDev" "Kind" [device] ++
  under "NetDev" "Description" (leaf node "description").toList ++
  under "NetDev" "MTUBytes" (leaf node "mtu").toList ++
  under "NetDev" "MACAddress" (leaf node "mac").toList ++ kindEntries device node

section Lays
variable {config : ConfigTree} {kind name : String} {node : Node} {zones : List String}
  (hclean : (schema zones).validateTree config = []) (hget : config.get (interface kind name) = some node)
include hclean hget

theorem plain_value {leaf : String} (hleaf : leaf ∉ ["address","disable","member","stp"]) :
    ∀ v ∈ (Networkd.leaf node leaf).toList, Plain v.toList :=
  fun _ hv => plain_leaf hclean hget hleaf (Option.mem_toList.mp hv)

theorem lays_setting {ini : Ini} {sec key leaf : String} {es : List Entry} (h : ini.Lays sec es) (hkey : Word key)
    (hleaf : leaf ∉ ["address","disable","member","stp"]) :
    (ini.maybe key (Networkd.leaf node leaf)).Lays sec (es ++ under sec key (Networkd.leaf node leaf).toList) := by
  rw [maybe_eq]
  exact lays_each h hkey (plain_value hclean hget hleaf)

theorem lays_networkFile : ∃ ini : Ini, networkFile name node (Attachments.of config) = ini.out ∧
    ini.Lays "Network" (networkSettings name node (Attachments.of config)) := by
  refine ⟨_,rfl,?_⟩
  unfold networkSettings
  refine lays_each ?_ (word_ofList (by decide) (by decide)) (fun v hv => (tight_rider hclean (by decide) hv).plain)
  refine lays_each ?_ (word_ofList (by decide) (by decide)) (fun v hv => (tight_rider hclean (by decide) hv).plain)
  have hattached : ∀ {ini : Ini} {es : List Entry}, ini.Lays "Network" es →
      (attached ((Attachments.of config).master.get? name) ini).Lays "Network"
        (es ++ ((Attachments.of config).master.get? name).toList.flatMap (fun m => under "Network" m.1 [m.2])) := by
    intro ini es h
    cases hmaster : (Attachments.of config).master.get? name with
    | none => simpa [attached] using h
    | some m =>
      obtain ⟨hkey,hname⟩ := tight_master hclean hmaster
      have hword : Word m.1 := by
        obtain hbond | hbridge := hkey
        · rw [hbond]
          exact word_ofList (by decide) (by decide)
        · rw [hbridge]
          exact word_ofList (by decide) (by decide)
      simpa [attached,under] using h.key hword hname.plain
  refine hattached ?_
  refine lays_each ?_ (word_ofList (by decide) (by decide)) (fun v hv => (tight_address hclean hget v hv).plain)
  refine lays_ite ?_ _ (word_ofList (by decide) (by decide)) (by decide)
  refine lays_setting hclean hget ?_ (word_ofList (by decide) (by decide)) (by decide)
  refine @Ini.Lays.inSection _ "Link" _ ?_ _ (word_ofList (by decide) (by decide))
  refine lays_ite ?_ _ (word_ofList (by decide) (by decide)) (by decide)
  refine lays_setting hclean hget ?_ (word_ofList (by decide) (by decide)) (by decide)
  refine @Ini.Lays.inSection _ "Match" _ ?_ _ (word_ofList (by decide) (by decide))
  exact lays_each (Ini.lays_new.inSection (word_ofList (by decide) (by decide)))
    (word_ofList (by decide) (by decide)) (fun v hv => (List.mem_singleton.mp hv) ▸ (tight_name hclean hget).plain)

theorem lays_kindSettings {device : String} (hdevice : (kind,device) ∈ VIRTUAL) {ini : Ini} {es : List Entry}
    (h : ini.Lays "NetDev" es) : ∃ sec, (kindSettings device node ini).Lays sec (es ++ kindEntries device node) := by
  simp only [VIRTUAL,List.mem_cons,Prod.mk.injEq,List.not_mem_nil,or_false] at hdevice
  obtain ⟨-,rfl⟩ | ⟨-,rfl⟩ | ⟨-,rfl⟩ | ⟨-,rfl⟩ := hdevice
  · refine ⟨"VLAN",?_⟩
    exact lays_setting hclean hget (h.inSection (word_ofList (by decide) (by decide)))
      (word_ofList (by decide) (by decide)) (by decide)
  · refine ⟨"Bond",?_⟩
    simp only [kindEntries,kindSettings,String.reduceEq,if_true,if_false,← List.append_assoc]
    refine lays_setting hclean hget ?_ (word_ofList (by decide) (by decide)) (by decide)
    refine lays_setting hclean hget ?_ (word_ofList (by decide) (by decide)) (by decide)
    refine lays_setting hclean hget ?_ (word_ofList (by decide) (by decide)) (by decide)
    refine lays_setting hclean hget ?_ (word_ofList (by decide) (by decide)) (by decide)
    refine lays_setting hclean hget ?_ (word_ofList (by decide) (by decide)) (by decide)
    exact h.inSection (word_ofList (by decide) (by decide))
  · refine ⟨"Bridge",?_⟩
    simp only [kindEntries,kindSettings,String.reduceEq,if_true,if_false,← List.append_assoc]
    refine lays_setting hclean hget ?_ (word_ofList (by decide) (by decide)) (by decide)
    refine lays_setting hclean hget ?_ (word_ofList (by decide) (by decide)) (by decide)
    refine @lays_each _ _ _ _ [_] ?_ (word_ofList (by decide) (by decide)) (fun v hv => ?_)
    · exact h.inSection (word_ofList (by decide) (by decide))
    · rw [List.mem_singleton.mp hv]
      split_ifs
      all_goals exact by decide
  · refine ⟨"VXLAN",?_⟩
    simp only [kindEntries,kindSettings,String.reduceEq,if_true,if_false,← List.append_assoc]
    refine lays_ite ?_ _ (word_ofList (by decide) (by decide)) (by decide)
    refine lays_setting hclean hget ?_ (word_ofList (by decide) (by decide)) (by decide)
    refine lays_setting hclean hget ?_ (word_ofList (by decide) (by decide)) (by decide)
    refine lays_setting hclean hget ?_ (word_ofList (by decide) (by decide)) (by decide)
    refine lays_setting hclean hget ?_ (word_ofList (by decide) (by decide)) (by decide)
    refine lays_setting hclean hget ?_ (word_ofList (by decide) (by decide)) (by decide)
    refine lays_setting hclean hget ?_ (word_ofList (by decide) (by decide)) (by decide)
    exact h.inSection (word_ofList (by decide) (by decide))

theorem lays_netdevFile {device : String} (hdevice : (kind,device) ∈ VIRTUAL) :
    ∃ ini : Ini, netdevFile device name node = ini.out ∧ ∃ sec,
      ini.Lays sec (netdevSettings device name node) := by
  have hword : Plain device.toList := by
    simp only [VIRTUAL,List.mem_cons,Prod.mk.injEq,List.not_mem_nil,or_false] at hdevice
    obtain ⟨-,rfl⟩ | ⟨-,rfl⟩ | ⟨-,rfl⟩ | ⟨-,rfl⟩ := hdevice
    all_goals exact by decide
  have hstart : (Ini.new.inSection "NetDev").Lays "NetDev" [] :=
    Ini.lays_new.inSection (word_ofList (by decide) (by decide))
  have hname := @Ini.Lays.key _ _ _ hstart "Name" name (word_ofList (by decide) (by decide)) (tight_name hclean hget).plain
  have hbase := @Ini.Lays.key _ _ _ hname "Kind" device (word_ofList (by decide) (by decide)) hword
  refine ⟨_,rfl,lays_kindSettings hclean hget hdevice ?_⟩
  refine lays_setting hclean hget ?_ (word_ofList (by decide) (by decide)) (by decide)
  refine lays_setting hclean hget ?_ (word_ofList (by decide) (by decide)) (by decide)
  exact lays_setting hclean hget hbase (word_ofList (by decide) (by decide)) (by decide)

theorem lays_linkFile {text : String} (h : linkFile name node = some text) :
    ∃ ini : Ini, text = ini.out ∧ ini.Lays "Link" (linkEntries name node) := by
  have hspeed : ∀ v ∈ (((leaf node "speed").filter (· ≠ "auto")).map (fun s => s ++ "M")).toList, Plain v.toList := by
    intro v hv
    obtain ⟨s,hs,rfl⟩ := Option.map_eq_some_iff.mp (Option.mem_toList.mp hv)
    have hplain := plain_value hclean hget (by decide) s (Option.mem_toList.mpr (Option.eq_some_of_filter_eq_some hs))
    rw [String.toList_append]
    intro c hc
    obtain hc | hc := List.mem_append.mp hc
    · exact hplain c hc
    · have hunit : Plain "M".toList := by decide
      exact hunit c hc
  have hduplex : ∀ v ∈ ((leaf node "duplex").filter (· ≠ "auto")).toList, Plain v.toList := by
    intro v hv
    have hset := Option.eq_some_of_filter_eq_some (Option.mem_toList.mp hv)
    exact plain_value hclean hget (by decide) v (Option.mem_toList.mpr hset)
  have htail : ∀ {ini : Ini} {es : List Entry}, ini.Lays "Link" es →
      (((ini.maybe "MACAddress" (leaf node "mac")).maybe "BitsPerSecond"
        (((leaf node "speed").filter (· ≠ "auto")).map (fun s => s ++ "M"))).maybe "Duplex"
        ((leaf node "duplex").filter (· ≠ "auto"))).Lays "Link"
      (es ++ under "Link" "MACAddress" (leaf node "mac").toList ++
        under "Link" "BitsPerSecond" (((leaf node "speed").filter (· ≠ "auto")).map (fun s => s ++ "M")).toList ++
        under "Link" "Duplex" ((leaf node "duplex").filter (· ≠ "auto")).toList) := by
    intro ini es hini
    rw [maybe_eq _ "Duplex",maybe_eq _ "BitsPerSecond"]
    have hmac := @lays_setting _ _ _ _ _ hclean hget _ _ "MACAddress" "mac" _ hini (word_ofList (by decide) (by decide)) (by decide)
    exact lays_each (lays_each hmac (word_ofList (by decide) (by decide)) hspeed) (word_ofList (by decide) (by decide)) hduplex
  have hmatch : (Ini.new.inSection "Match").Lays "Match" [] := Ini.lays_new.inSection (word_ofList (by decide) (by decide))
  have hname := (tight_name hclean hget).plain
  unfold linkFile at h
  unfold linkEntries
  cases hid : leaf node "hw-id" with
  | some hwId =>
    have hvalue : Plain hwId.toList := plain_leaf hclean hget (by decide) hid
    have hpinned := @Ini.Lays.key _ _ _ hmatch "PermanentMACAddress" hwId (word_ofList (by decide) (by decide)) hvalue
    have hnamed := @Ini.Lays.key _ "Link" _ (hpinned.inSection (word_ofList (by decide) (by decide))) "Name" name
      (word_ofList (by decide) (by decide)) hname
    rw [hid] at h
    exact ⟨_,(Option.some.inj h).symm,htail hnamed⟩
  | none =>
    have hnamed := @Ini.Lays.key _ _ _ hmatch "OriginalName" name (word_ofList (by decide) (by decide)) hname
    rw [hid] at h
    simp only [Option.isNone_none,Bool.true_and,Option.isSome_none,Bool.false_eq_true,if_false] at h
    split_ifs at h
    exact ⟨_,(Option.some.inj h).symm,htail (hnamed.inSection (word_ofList (by decide) (by decide)))⟩

end Lays

/-! ### Values that come through -/

/-- A value that starts and ends on its own line. -/
def Kept (value : String) : Prop := Closed value ∧ Flush value

def unescaped (c : Char) : Bool := c ≠ '\\'

instance : Covers unescaped where
  alphanum h := by
    rw [unescaped,decide_eq_true_eq]
    rintro rfl
    exact absurd h (by decide)
  mark hc := by
    simp only [List.mem_cons,List.not_mem_nil,or_false] at hc
    obtain rfl | rfl | rfl | rfl | rfl | rfl | rfl := hc
    all_goals decide

theorem kept_of_tight {value : String} (htight : Tight value.toList) (htext : Text unescaped value.toList) :
    Kept value := by
  constructor
  · unfold Closed isOpen
    rw [decide_eq_false_iff_not]
    intro hlast
    exact absurd (htext _ (List.mem_of_getLast? hlast)) (by decide)
  · intro c hc
    have hspace := htight.unspaced c (List.mem_of_mem_head? hc)
    have hplain := htight.plain c (List.mem_of_mem_head? hc)
    unfold isBlank
    by_contra hblank
    simp only [Bool.not_eq_false,Bool.or_eq_true,decide_eq_true_eq] at hblank
    obtain ((rfl | rfl) | rfl) | rfl := hblank
    · exact absurd hspace (by decide)
    · exact absurd hplain (by decide)
    · exact absurd hplain (by decide)
    · exact absurd hplain (by decide)

theorem kept_ofList {l : List Char} (h : l.all (fun c => isTight c && unescaped c) = true) : Kept (String.ofList l) := by
  have hall := List.all_eq_true.mp h
  simp only [Bool.and_eq_true] at hall
  apply kept_of_tight
  · rewrite [String.toList_ofList]
    exact fun c hc => (hall c hc).1
  · rewrite [String.toList_ofList]
    exact fun c hc => (hall c hc).2

theorem kept_unit {s : String} (h : Kept s) : Kept (s ++ "M") := by
  have htext : (s ++ "M").toList = s.toList ++ ['M'] := String.toList_append
  constructor
  · rw [Closed,htext,isOpen,List.getLast?_concat]
    decide
  · intro c hc
    rw [htext] at hc
    cases hs : s.toList with
    | nil =>
      rw [hs] at hc
      cases hc
      decide
    | cons d rest =>
      rw [hs] at hc
      have hd : d = c := Option.some.inj hc
      exact h.2 c (by rw [hs,hd]; rfl)

/-- Whether the words that are taken literally have no backslash, and nothing is a password hash. -/
def escapeFree (n : SchemaNode) : Bool :=
  (specOf n).all (fun spec => (spec.accepts ++ spec.ty.listed).all (fun v => v.toList.all unescaped) &&
    spec.ty ≠ .encryptedPassword)

theorem tags_escapeFree : tags.all (fun t => escapeFree t.2 && t.2.children.all (fun e => escapeFree e.2)) = true := by
  decide +kernel

theorem text_of_escapeFree {n : SchemaNode} {spec : ValueSpec} {value : String} (h : escapeFree n)
    (hspec : specOf n = some spec) (htext : spec.ty ≠ .text) (hcheck : spec.check value = .ok ()) :
    Text unescaped value.toList := by
  unfold escapeFree at h
  rw [hspec,Option.all_some,Bool.and_eq_true,decide_eq_true_eq] at h
  refine ValueSpec.text_of_check htext h.2 (fun v hv => ?_) hcheck
  exact List.all_eq_true.mp (List.all_eq_true.mp h.1 v hv)

section Kept
variable {config : ConfigTree} {kind name : String} {node : Node} {zones : List String}
  (hclean : (schema zones).validateTree config = [])
include hclean

theorem kept_setting {leaf value : String} (hleaf : leaf ≠ "description")
    (h : config.Holds (Shipped.setting kind name leaf) value) : Kept value := by
  obtain ⟨tag,child,spec,htag,hchild,hspec,hcheck⟩ := value_checked hclean h
  have hall := List.all_eq_true.mp tags_escapeFree _ (lookup_mem htag)
  rw [Bool.and_eq_true] at hall
  have hfree : escapeFree child := List.all_eq_true.mp hall.2 _ (lookup_mem hchild)
  obtain ⟨-,htext | hdescription⟩ := words_of_fine (fine_child htag hchild) hspec
  · exact kept_of_tight (tight_setting hclean hleaf h) (text_of_escapeFree hfree hspec htext hcheck)
  · exact absurd hdescription hleaf

variable (hget : config.get (interface kind name) = some node)

include hget in
theorem kept_name : Kept name := by
  obtain ⟨tag,spec,htag,hkind,hcheck⟩ := name_checked hclean hget
  have hspec : specOf tag = some spec := by rw [specOf,hkind]
  have hall := List.all_eq_true.mp tags_escapeFree _ (lookup_mem htag)
  rw [Bool.and_eq_true] at hall
  obtain ⟨-,htext | hdescription⟩ := words_of_fine (fine_tag htag) hspec
  · exact kept_of_tight (tight_name hclean hget) (text_of_escapeFree hall.1 hspec htext hcheck)
  · rw [hdescription] at htag
    cases htag

theorem kept_rider {leaf v : String} (hleaf : leaf ∉ ["address","disable","member","stp"])
    (hv : v ∈ ((riders config kind leaf).get? name).getD []) : Kept v := by
  obtain ⟨rider,hrider⟩ := interface_of_holds ((mem_riders hclean hleaf).mp hv)
  exact kept_name hclean hrider

theorem kept_master {m : String × String} (hm : (Attachments.of config).master.get? name = some m) : Kept m.2 := by
  rw [master_eq] at hm
  have hmem : (name,m.1,m.2) ∈ memberships config := SortedMap.mem_of_get?_insertAll hm
  obtain ⟨-,hholds⟩ | ⟨-,hholds⟩ := mem_memberships.mp hmem
  · obtain ⟨master,hmaster⟩ := interface_of_holds hholds
    exact kept_name hclean hmaster
  · obtain ⟨master,hmaster⟩ := interface_of_holds hholds
    exact kept_name hclean hmaster

include hget

theorem kept_leaf {leaf : String} (hleaf : leaf ∉ ["address","disable","member","stp","description"]) :
    ∀ v ∈ (Networkd.leaf node leaf).toList, Kept v := by
  intro v hv
  have hsingle : leaf ∉ ["address","disable","member","stp"] := fun h => hleaf (List.mem_append_left ["description"] h)
  have htext : leaf ≠ "description" := fun h => hleaf (by simp [h])
  exact kept_setting hclean htext ((leaf_iff hclean hget hsingle).mp (Option.mem_toList.mp hv))

omit hclean hget in
theorem forall_under {P : Entry → Prop} {sec key : String} {values : List String} :
    (∀ e ∈ under sec key values, P e) ↔ ∀ v ∈ values, P ((sec,key),v) := List.forall_mem_map

/-- All that a `.network` has to say comes through, but for the description. -/
theorem networkSettings_kept : (∀ e ∈ networkSettings name node (Attachments.of config), Kept e.2) ↔
    ∀ d ∈ (leaf node "description").toList, Kept d := by
  have hconstant : ∀ c : Prop, ∀ [Decidable c], ∀ sec key value, Kept value →
      ∀ e ∈ (if c then under sec key [value] else []), Kept e.2 := by
    intro c _ sec key value hkept e he
    split_ifs at he
    · rw [List.mem_singleton.mp he]
      exact hkept
    · cases he
  constructor
  · intro h d hd
    refine h (("Network","Description"),d) ?_
    simp only [networkSettings,List.mem_append]
    exact .inl (.inl (.inl (.inl (.inl (.inr (List.mem_map.mpr ⟨d,hd,rfl⟩))))))
  · intro h
    unfold networkSettings
    simp only [List.forall_mem_append,forall_under]
    refine ⟨⟨⟨⟨⟨⟨⟨⟨?_,kept_leaf hclean hget (by decide)⟩,?_⟩,h⟩,?_⟩,?_⟩,?_⟩,?_⟩,?_⟩
    · intro v hv
      rw [List.mem_singleton.mp hv]
      exact kept_name hclean hget
    · exact hconstant _ _ _ _ (kept_ofList (by decide))
    · exact hconstant _ _ _ _ (kept_ofList (by decide))
    · exact fun v hv => kept_setting hclean (by decide) ((mem_list hget).mp (List.mem_of_mem_filter hv))
    · intro e he
      obtain ⟨m,hm,he⟩ := List.mem_flatMap.mp he
      rw [List.mem_singleton.mp he]
      exact kept_master hclean (Option.mem_toList.mp hm)
    · exact fun v hv => kept_rider hclean (by decide) hv
    · exact fun v hv => kept_rider hclean (by decide) hv

theorem kindEntries_kept {device : String} : ∀ e ∈ kindEntries device node, Kept e.2 := by
  have hleaf : ∀ {leaf : String}, leaf ∉ ["address","disable","member","stp","description"] →
      ∀ v ∈ (Networkd.leaf node leaf).toList, Kept v := fun h => kept_leaf hclean hget h
  have hword : ∀ {w : String}, Kept w → ∀ v ∈ [w], Kept v := fun h => List.forall_mem_singleton.mpr h
  unfold kindEntries
  split_ifs
  all_goals simp only [List.forall_mem_append,forall_under]
  · exact hleaf (by decide)
  · exact ⟨⟨⟨⟨hleaf (by decide),hleaf (by decide)⟩,hleaf (by decide)⟩,hleaf (by decide)⟩,hleaf (by decide)⟩
  · exact ⟨⟨hword (kept_ofList (by decide)),hleaf (by decide)⟩,hleaf (by decide)⟩
  · exact ⟨⟨hword (kept_ofList (by decide)),hleaf (by decide)⟩,hleaf (by decide)⟩
  · exact ⟨⟨⟨⟨⟨⟨hleaf (by decide),hleaf (by decide)⟩,hleaf (by decide)⟩,hleaf (by decide)⟩,hleaf (by decide)⟩,
      hleaf (by decide)⟩,hword (kept_ofList (by decide))⟩
  · exact ⟨⟨⟨⟨⟨⟨hleaf (by decide),hleaf (by decide)⟩,hleaf (by decide)⟩,hleaf (by decide)⟩,hleaf (by decide)⟩,
      hleaf (by decide)⟩,nofun⟩

theorem netdevSettings_kept {device : String} (hdevice : (kind,device) ∈ VIRTUAL)
    (h : ∀ d ∈ (leaf node "description").toList, Kept d) : ∀ e ∈ netdevSettings device name node, Kept e.2 := by
  unfold netdevSettings
  simp only [List.forall_mem_append,forall_under]
  refine ⟨⟨⟨⟨⟨?_,?_⟩,h⟩,kept_leaf hclean hget (by decide)⟩,kept_leaf hclean hget (by decide)⟩,
    kindEntries_kept hclean hget⟩
  · intro v hv
    rw [List.mem_singleton.mp hv]
    exact kept_name hclean hget
  · intro v hv
    rw [List.mem_singleton.mp hv]
    simp only [VIRTUAL,List.mem_cons,Prod.mk.injEq,List.not_mem_nil,or_false] at hdevice
    obtain ⟨-,rfl⟩ | ⟨-,rfl⟩ | ⟨-,rfl⟩ | ⟨-,rfl⟩ := hdevice
    all_goals exact kept_ofList (by decide)

theorem linkEntries_kept : ∀ e ∈ linkEntries name node, Kept e.2 := by
  have hspeed : ∀ v ∈ (((leaf node "speed").filter (· ≠ "auto")).map (fun s => s ++ "M")).toList, Kept v := by
    intro v hv
    obtain ⟨s,hs,rfl⟩ := Option.map_eq_some_iff.mp (Option.mem_toList.mp hv)
    exact kept_unit (kept_leaf hclean hget (by decide) s (Option.mem_toList.mpr (Option.eq_some_of_filter_eq_some hs)))
  have hduplex : ∀ v ∈ ((leaf node "duplex").filter (· ≠ "auto")).toList, Kept v := fun v hv =>
    kept_leaf hclean hget (by decide) v
      (Option.mem_toList.mpr (Option.eq_some_of_filter_eq_some (Option.mem_toList.mp hv)))
  have hname := kept_name hclean hget
  unfold linkEntries
  simp only [List.forall_mem_append,forall_under]
  refine ⟨⟨⟨?_,kept_leaf hclean hget (by decide)⟩,hspeed⟩,hduplex⟩
  cases hid : leaf node "hw-id" with
  | some hwId =>
    have hvalue : Kept hwId := kept_leaf hclean hget (by decide) hwId (Option.mem_toList.mpr hid)
    simp only [List.forall_mem_append,forall_under,List.forall_mem_singleton]
    exact ⟨hvalue,hname⟩
  | none => simpa only [forall_under,List.forall_mem_singleton] using hname

end Kept

/-- The files of every interface read back as the settings that they are meant to hold. -/
structure ReadsBack (config : ConfigTree) : Prop where
  network : ∀ kind name node, config.get (interface kind name) = some node →
    readBack (networkFile name node (Attachments.of config)) = networkSettings name node (Attachments.of config)
  netdev : ∀ kind device name node, (kind,device) ∈ VIRTUAL → config.get (interface kind name) = some node →
    readBack (netdevFile device name node) = netdevSettings device name node
  link : ∀ kind ∈ PHYSICAL, ∀ name node text, config.get (interface kind name) = some node →
    linkFile name node = some text → readBack text = linkEntries name node

section ReadsBack
variable {config : ConfigTree} {kind name : String} {node : Node} {zones : List String}
  (hclean : (schema zones).validateTree config = [])
include hclean

theorem description_iff (hget : config.get (interface kind name) = some node) {d : String} :
    d ∈ (leaf node "description").toList ↔ config.Holds (Shipped.setting kind name "description") d := by
  rw [Option.mem_toList]
  exact leaf_iff hclean hget (by decide)

/-- A description that does not come through is misread from the `.network` of its interface. -/
theorem kept_of_readsBack (h : ReadsBack config) {description : String}
    (hholds : config.Holds (Shipped.setting kind name "description") description) : Kept description := by
  obtain ⟨node,hget⟩ := interface_of_holds hholds
  obtain ⟨ini,hout,hlays⟩ := lays_networkFile hclean hget
  have hread := h.network kind name node hget
  rw [hout,hlays.reads_iff] at hread
  exact (networkSettings_kept hclean hget).mp hread description ((description_iff hclean hget).mpr hholds)

end ReadsBack

/-- Files read back as they are meant just where no description starts with a blank or ends in a
backslash. -/
theorem readsBack_iff (zones : List String) (config : ConfigTree) (hclean : (schema zones).validateTree config = []) :
    ReadsBack config ↔
      ∀ kind name description, config.Holds (Shipped.setting kind name "description") description → Kept description := by
  constructor
  · exact fun h kind name description hholds => kept_of_readsBack hclean h hholds
  · intro h
    have hdescribed : ∀ {kind name : String} {node : Node}, config.get (interface kind name) = some node →
        ∀ d ∈ (leaf node "description").toList, Kept d := fun hget d hd =>
      h _ _ d ((description_iff hclean hget).mp hd)
    constructor
    · intro kind name node hget
      obtain ⟨ini,hout,hlays⟩ := lays_networkFile hclean hget
      rw [hout,hlays.reads_iff]
      exact (networkSettings_kept hclean hget).mpr (hdescribed hget)
    · intro kind device name node hdevice hget
      obtain ⟨ini,hout,sec,hlays⟩ := lays_netdevFile hclean hget hdevice
      rw [hout,hlays.reads_iff]
      exact netdevSettings_kept hclean hget hdevice (hdescribed hget)
    · intro kind _ name node text hget hlink
      obtain ⟨ini,rfl,hlays⟩ := lays_linkFile hclean hget hlink
      rw [hlays.reads_iff]
      exact linkEntries_kept hclean hget

theorem trunk_readsBack_iff : ReadsBack trunk ↔
    ∀ kind name description, trunk.Holds (Shipped.setting kind name "description") description → Kept description :=
  readsBack_iff [] trunk (by decide +kernel)

/-- A port that is described with a backslash at the end, and has an address. -/
def described : ConfigTree :=
  ((ConfigTree.new.set (Shipped.setting "ethernet" "eth0" "description") "up\\").2.add
    (Shipped.setting "ethernet" "eth0" "address") "192.0.2.1/24").2

/-- The line with the address is taken for the rest of the description. -/
theorem described_misread : ∃ artifacts, (schema []).validateTree described = [] ∧
    (schema []).checkConstraints described = [] ∧ render described = .ok artifacts ∧ check artifacts = .ok () ∧
    ¬ReadsBack described := by
  have hclean : (schema []).validateTree described = [] := by decide +kernel
  have hcross : (schema []).checkConstraints described = [] := by decide +kernel
  have hnames : NamesApart described := namesApart_of hclean (by decide +kernel)
  refine ⟨_,hclean,hcross,rfl,check_of_apart hclean hcross rfl hnames,fun h => ?_⟩
  have hholds : described.Holds (Shipped.setting "ethernet" "eth0" "description") "up\\" :=
    ⟨["up\\"],by decide +kernel,by decide⟩
  have hclosed : isOpen "up\\".toList = false := (kept_of_readsBack hclean h hholds).1
  exact absurd hclosed (by decide)

end Networkd
end Nightshade.Render

import Mathlib
import Nightshade.Foundation.Maxima
import Nightshade.Schema.Words

/-! The mount that a path lies on, by a table of what is mounted. -/
namespace Nightshade.Installer
open Foundation Schema

/-- What is mounted, and where. -/
structure MountEntry where
  source : String
  target : String
  deriving Repr, DecidableEq

/-- The first two fields of each line of a table; lines with fewer are passed over. -/
def mountEntries (mounts : String) : List MountEntry :=
  (Lexer.lines mounts.toList).filterMap (fun line =>
    match splitWhitespace (String.ofList line) with
    | source::target::_ => some ⟨source,target⟩
    | _ => none)

/-- The mount point is where the path starts, and ends at the end of a name of the path. -/
def startsAt (path target : String) : Bool :=
  target.toList.isPrefixOf path.toList &&
    !(target ≠ "/" && target.utf8ByteSize < path.utf8ByteSize &&
      (path.toList.drop target.toList.length).head? ≠ some '/')

/-- The longest mount point so far, by its length, with what is mounted there. -/
def longer (path : String) (best : Option (ℕ × String)) (entry : MountEntry) : Option (ℕ × String) :=
  if startsAt path entry.target && best.all (fun b => b.1 < entry.target.utf8ByteSize)
  then some (entry.target.utf8ByteSize,entry.source) else best

/-- The device whose mount point is the longest prefix of a path, by the text of `/proc/mounts`. -/
def mountSourceForPath (mounts path : String) : Option String :=
  ((mountEntries mounts).foldl (longer path) none).map Prod.snd

/-! ### What a path lies on -/

/-- The names between the slashes of a path. -/
def components (path : String) : List (List Char) := path.toList.splitOn '/'

/-- The mount point is the path itself or above it, name by name. -/
def Above (target path : String) : Prop := target = "/" ∨ components target <+: components path

instance (target path : String) : Decidable (Above target path) := instDecidableOr

/-- The mounts on the deepest mount point of a path, as they are listed: each covers those before it. -/
def deepest (mounts path : String) : List MountEntry :=
  maxima (fun entry : MountEntry => Above entry.target path) (fun entry => entry.target.utf8ByteSize) (mountEntries mounts)

/-- The mount that a path lies on: the last on its deepest mount point. -/
def mountOf (mounts path : String) : Option MountEntry := (deepest mounts path).getLast?

variable {mounts path target : String}

theorem intercalate_prefix (sep : Char) {xs ys : List (List Char)} (hxs : xs ≠ []) (h : xs <+: ys) :
    [sep].intercalate ys = [sep].intercalate xs ∨
      ∃ rest, [sep].intercalate ys = [sep].intercalate xs ++ sep::rest := by
  obtain ⟨more,rfl⟩ := h
  cases more with
  | nil => exact .inl (by rw [List.append_nil])
  | cons m more =>
    right
    induction xs with
    | nil => exact absurd rfl hxs
    | cons x xs ih =>
      cases xs with
      | nil => exact ⟨[sep].intercalate (m::more),by simp [List.intercalate_cons_cons]⟩
      | cons y xs =>
        obtain ⟨rest,hrest⟩ := ih (by simp)
        refine ⟨rest,?_⟩
        rw [List.cons_append,List.cons_append,List.intercalate_cons_cons,List.intercalate_cons_cons]
        rw [List.cons_append] at hrest
        rw [hrest]
        simp

/-- To be above a path is to be it, or to go on in it with a slash. -/
theorem components_prefix_iff : components target <+: components path ↔
    path.toList = target.toList ∨ ∃ rest, path.toList = target.toList ++ '/'::rest := by
  unfold components
  constructor
  · intro h
    have hcases := intercalate_prefix '/' (List.splitOn_ne_nil _ _) h
    rwa [List.intercalate_splitOn,List.intercalate_splitOn] at hcases
  · intro h
    obtain h | ⟨rest,h⟩ := h
    · rw [h]
    · rw [h,List.splitOn_append_cons_self]
      exact List.prefix_append _ _

theorem startsAt_iff (hpath : path.toList.head? = some '/') : startsAt path target = true ↔ Above target path := by
  unfold startsAt Above
  rw [components_prefix_iff]
  by_cases hroot : target = "/"
  · subst hroot
    obtain ⟨rest,hrest⟩ := List.head?_eq_some_iff.mp hpath
    rw [hrest]
    simp
  · simp only [hroot,false_or]
    constructor
    · intro h
      rw [Bool.and_eq_true,List.isPrefixOf_iff_prefix] at h
      obtain ⟨⟨rest,hrest⟩,hend⟩ := h
      cases rest with
      | nil => exact .inl (by rw [← hrest,List.append_nil])
      | cons c rest =>
        have hsize : target.utf8ByteSize < path.utf8ByteSize := by
          have hjoin : path = target ++ String.ofList (c::rest) := by
            rw [← String.toList_inj,← hrest]
            simp
          rw [hjoin,String.utf8ByteSize_append]
          have hpos : 0 < (String.ofList (c::rest)).utf8ByteSize := by
            rw [String.ofList_cons,String.utf8ByteSize_append]
            have := c.utf8Size_pos
            simp
            omega
          omega
        rw [← hrest,List.drop_left] at hend
        simp [hroot,hsize] at hend
        exact .inr ⟨rest,by rw [← hrest,hend]⟩
    · intro h
      obtain h | ⟨rest,h⟩ := h
      · rw [h]
        have hsame : path = target := String.toList_inj.mp h
        simp [hsame]
      · rw [h,List.drop_left]
        simp

/-- What the loop keeps of an entry. -/
def kept (entry : MountEntry) : ℕ × String := (entry.target.utf8ByteSize,entry.source)

theorem longer_eq (hpath : path.toList.head? = some '/') (best : Option MountEntry) (entry : MountEntry) :
    longer path (best.map kept) entry =
      (larger (fun e : MountEntry => Above e.target path) (fun e => e.target.utf8ByteSize) best entry).map kept := by
  have hstart : startsAt path entry.target = decide (Above entry.target path) :=
    Bool.eq_iff_iff.mpr ((startsAt_iff hpath).trans decide_eq_true_iff.symm)
  unfold longer larger
  rw [hstart]
  cases best with
  | none =>
    by_cases habove : Above entry.target path
    · simp [habove,kept]
    · simp [habove]
  | some b =>
    by_cases habove : Above entry.target path
    · by_cases hlonger : b.target.utf8ByteSize < entry.target.utf8ByteSize
      · simp [habove,hlonger,kept]
      · simp [habove,hlonger,kept]
    · simp [habove]

/-- The loop finds the first mount on the deepest mount point. -/
theorem mountSourceForPath_eq (hpath : path.toList.head? = some '/') :
    mountSourceForPath mounts path = (deepest mounts path).head?.map MountEntry.source := by
  have hloop : ∀ (entries : List MountEntry) (best : Option MountEntry), entries.foldl (longer path) (best.map kept) =
      (entries.foldl (larger (fun e : MountEntry => Above e.target path) (fun e => e.target.utf8ByteSize)) best).map
        kept := by
    intro entries
    induction entries with
    | nil => exact fun _ => rfl
    | cons entry entries ih =>
      intro best
      rw [List.foldl_cons,List.foldl_cons,longer_eq hpath,ih]
  have hfold := hloop (mountEntries mounts) none
  rw [Option.map_none] at hfold
  rw [mountSourceForPath,hfold,foldl_larger,deepest,Option.map_map]
  rfl

/-- A path is charged to the mount it lies on just where the mount that is listed first on its deepest mount point
is of the same device as the last, which covers it. -/
theorem charged_iff (hpath : path.toList.head? = some '/') :
    mountSourceForPath mounts path = (mountOf mounts path).map MountEntry.source ↔
      ∀ first ∈ (deepest mounts path).head?, ∀ last ∈ (deepest mounts path).getLast?, first.source = last.source := by
  rw [mountSourceForPath_eq hpath,mountOf]
  cases hdeepest : deepest mounts path with
  | nil => exact iff_of_true rfl nofun
  | cons entry entries =>
    rw [List.getLast?_eq_some_getLast (List.cons_ne_nil entry entries)]
    simp

theorem charged_runner : ("/runner/x".toList.head? = some '/') ∧
    (mountSourceForPath "tmpfs /run tmpfs rw\n/dev/sda1 / ext4 rw\n" "/runner/x" =
        (mountOf "tmpfs /run tmpfs rw\n/dev/sda1 / ext4 rw\n" "/runner/x").map MountEntry.source ↔
      ∀ first ∈ (deepest "tmpfs /run tmpfs rw\n/dev/sda1 / ext4 rw\n" "/runner/x").head?,
        ∀ last ∈ (deepest "tmpfs /run tmpfs rw\n/dev/sda1 / ext4 rw\n" "/runner/x").getLast?,
          first.source = last.source) :=
  ⟨by decide +kernel,charged_iff (by decide +kernel)⟩

/-- The root file system of the boot loader, and the one that is mounted over it. -/
theorem covered_charged : mountSourceForPath "rootfs / rootfs rw\noverlay / overlay rw\n" "/filesystem.squashfs" =
      some "rootfs" ∧
    mountOf "rootfs / rootfs rw\noverlay / overlay rw\n" "/filesystem.squashfs" = some ⟨"overlay","/"⟩ := by
  decide +kernel

end Nightshade.Installer

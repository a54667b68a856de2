import Confos.Igvm.Placement
import Mathlib.Data.List.Pairwise

/-!
# Which directive provides a page

A page of guest memory is provided by a page directive at its address or by the
insertion of a parameter area that contains it.  After the metadata pages, the
parameters and the hand-off data are added, every page of a memory region has
one provider, unless a second parameter area, a hand-off area of several pages
or an empty blob takes it away.
-/

namespace Confos.Igvm.PageCover

open Confos.Library.ByteStrings
open Confos.Igvm.Directives
open Confos.Igvm.Ovmf
open Confos.Igvm.Hob
open Confos.Igvm.Builder
open Confos.Igvm.Builder.IgvmBuilder
open Confos.Igvm.Build
open Confos.Igvm.PageRanges
open Confos.Igvm.Placement

/-! ## Providers -/

def isAreaOf (index : UInt32) : IgvmDirectiveHeader → Bool
  | .parameterArea _ areaIndex _ => areaIndex = index
  | _ => false

/-- The bytes of the parameter area of this number. -/
def areaBytes (directives : List IgvmDirectiveHeader) (index : UInt32) : Nat :=
  match directives.find? (isAreaOf index) with
  | some (.parameterArea numberOfBytes _ _) => numberOfBytes.toNat
  | _ => 0

def isParameter : IgvmDirectiveHeader → Bool
  | .parameterArea _ _ _ | .parameterInsert _ _ _ => true
  | _ => false

/-- Whether a directive inserts a parameter area that contains the page. -/
def insertsAt (directives : List IgvmDirectiveHeader) (gpa : Nat) :
    IgvmDirectiveHeader → Bool
  | .parameterInsert index areaGpa _ =>
      areaGpa.toNat ≤ gpa &&
        gpa + psize ≤
          areaGpa.toNat + roundUp psize (areaBytes directives index)
  | _ => false

/-- A page is provided by a page directive or by the insertion of an area. -/
def provides (directives : List IgvmDirectiveHeader) (gpa : Nat)
    (directive : IgvmDirectiveHeader) : Bool :=
  isPageIn gpa (gpa + 1) directive || insertsAt directives gpa directive

def providers (directives : List IgvmDirectiveHeader) (gpa : Nat) :
    List IgvmDirectiveHeader :=
  directives.filter (provides directives gpa)

/-! ## Regions and areas -/

/-- A region of guest memory that becomes pages. -/
def IsSev (region : OvmfRegion) : Prop :=
  (snpPageDataType region.etype).isSome = true

/-- A parameter area or a hand-off area. -/
def IsArea (region : OvmfRegion) : Prop :=
  region.etype = .igvmParamArea ∨ region.etype = .igvmHobArea

instance (region : OvmfRegion) : Decidable (IsSev region) :=
  inferInstanceAs (Decidable (_ = true))

instance (region : OvmfRegion) : Decidable (IsArea region) :=
  inferInstanceAs (Decidable (_ ∨ _))

/-- The addresses of a region. -/
def span (region : OvmfRegion) : Set Nat :=
  Set.Ico region.base (region.base + region.size)

/-- The addresses of a region's pages, the last one whole. -/
def pageSpan (region : OvmfRegion) : Set Nat :=
  Set.Ico region.base (region.base + roundUp psize region.size)

/-- Where the pages of a region start. -/
def regionPages (region : OvmfRegion) : List Nat :=
  (List.range (pageCount psize region.size)).map fun index =>
    region.base + index * psize

/--
Metadata with aligned regions whose pages do not meet, and with aligned areas
that do not meet and lie each in a region.
-/
structure AlignedMeta (ovmfMeta : OvmfMeta) : Prop where
  aligned :
    ∀ region ∈ ovmfMeta.regions,
      IsSev region ∨ IsArea region → psize ∣ region.base
  regions_apart :
    ovmfMeta.regions.Pairwise fun left right =>
      IsSev left → IsSev right → Disjoint (pageSpan left) (pageSpan right)
  areas_apart :
    ovmfMeta.regions.Pairwise fun left right =>
      IsArea left → IsArea right → Disjoint (span left) (span right)
  areas_inside :
    ∀ area ∈ ovmfMeta.regions, IsArea area →
      ∃ region ∈ ovmfMeta.regions,
        IsSev region ∧ span area ⊆ pageSpan region

/-- Blobs in the address space, off the pages of the regions. -/
structure BlobsClear (ovmfMeta : OvmfMeta) (inputs : HobInputs) : Prop where
  below : (hobList inputs).base ≤ 2 ^ 64
  clear :
    ∀ entry ∈ (hobList inputs).data, ∀ region ∈ ovmfMeta.regions,
      IsSev region → Disjoint (pageRange entry) (pageSpan region)

/-- A builder without parameters that provides no page of a region yet. -/
structure Fresh (ovmfMeta : OvmfMeta) (builder : IgvmBuilder) : Prop where
  no_parameters :
    ∀ directive ∈ builder.directives, isParameter directive = false
  no_pages :
    ∀ region ∈ ovmfMeta.regions, IsSev region → ∀ gpa ∈ regionPages region,
      pagesIn gpa (gpa + 1) builder.directives = []

/-- Every page of every region has one provider. -/
def CoveredOnce (ovmfMeta : OvmfMeta) (directives : List IgvmDirectiveHeader) :
    Prop :=
  ∀ region ∈ ovmfMeta.regions, IsSev region →
    ∀ gpa ∈ regionPages region, (providers directives gpa).length = 1

section

variable {region : OvmfRegion} {gpa : Nat}

theorem mem_regionPages_iff (aligned : psize ∣ region.base) :
    gpa ∈ regionPages region ↔ psize ∣ gpa ∧ gpa ∈ span region := by
  rw [regionPages, List.mem_map]
  constructor
  · rintro ⟨index, inside, rfl⟩
    have below := (lt_pageCount_iff psize_pos).1 (List.mem_range.1 inside)
    exact
      ⟨Nat.dvd_add aligned (Nat.dvd_mul_left psize index),
        Nat.le_add_right _ _, Nat.add_lt_add_left below _⟩
  · rintro ⟨whole, lower, upper⟩
    have multiple : psize ∣ gpa - region.base := Nat.dvd_sub whole aligned
    have exactly : (gpa - region.base) / psize * psize = gpa - region.base :=
      Nat.div_mul_cancel multiple
    refine ⟨(gpa - region.base) / psize, ?_, by omega⟩
    apply List.mem_range.2
    apply (lt_pageCount_iff psize_pos).2
    omega

theorem span_subset_pageSpan : span region ⊆ pageSpan region :=
  Set.Ico_subset_Ico_right (Nat.add_le_add_left (le_roundUp psize_pos _) _)

/-- An aligned address in the pages of a region is one of its addresses. -/
theorem mem_span_of_mem_pageSpan
    (aligned : psize ∣ region.base) (whole : psize ∣ gpa)
    (inside : gpa ∈ pageSpan region) : gpa ∈ span region := by
  refine ⟨inside.1, ?_⟩
  have upper : gpa < region.base + pageCount psize region.size * psize :=
    inside.2
  rcases Nat.dvd_sub whole aligned with ⟨index, distance⟩
  have lower : region.base ≤ gpa := inside.1
  have below : index < pageCount psize region.size := by
    apply Nat.lt_of_mul_lt_mul_right (a := psize)
    rw [Nat.mul_comm index, ← distance]
    omega
  have short := (lt_pageCount_iff psize_pos).1 below
  rw [Nat.mul_comm index, ← distance] at short
  omega

theorem base_mem_span : region.base ∈ span region :=
  ⟨le_rfl, Nat.lt_add_of_pos_right region.size_pos⟩

end

/-! ## Directives that are no pages -/

def isPage : IgvmDirectiveHeader → Bool
  | .pageData _ _ _ _ _ => true
  | _ => false

/-- The directives that the page operations leave alone. -/
def others (directives : List IgvmDirectiveHeader) :
    List IgvmDirectiveHeader :=
  directives.filter fun directive => !isPage directive

section

variable {directives : List IgvmDirectiveHeader} {gpa : Nat}

theorem others_append (first second : List IgvmDirectiveHeader) :
    others (first ++ second) = others first ++ others second :=
  List.filter_append ..

theorem others_eq_nil
    (pages : ∀ directive ∈ directives, isPage directive = true) :
    others directives = [] := by
  apply List.filter_eq_nil_iff.2
  intro directive member
  rw [pages directive member]
  decide

theorem others_remove (base size : Nat) :
    others
        (directives.filter fun directive =>
          !isPageInRange base size directive) =
      others directives := by
  rw [others, others, List.filter_filter]
  apply List.filter_congr
  intro directive _
  cases directive with
  | pageData => rfl
  | _ => rfl

theorem others_dataPages
    (base : Nat) (data : Bytes) (mask : UInt32) (flags : IgvmPageDataFlags) :
    others (dataPages base data mask flags) = [] := by
  apply others_eq_nil
  intro directive member
  rcases List.mem_map.1 member with ⟨index, -, rfl⟩
  rfl

theorem others_foldl_placeBlob
    {flags : IgvmPageDataFlags} (placements : List (Nat × Bytes))
    (builder : IgvmBuilder) :
    others (placements.foldl (placeBlob flags) builder).directives =
      others builder.directives := by
  induction placements generalizing builder with
  | nil => rfl
  | cons placed placements induction =>
      rw [List.foldl_cons, induction, placeBlob_directives, others_append,
        others_remove, others_dataPages, List.append_nil]

theorem others_placeHobs
    (builder : IgvmBuilder) (hobArea : OvmfRegion) (list : IgvmDataList) :
    others (placeHobs builder hobArea list).directives =
      others builder.directives := by
  rw [placeHobs, others_foldl_placeBlob, others_foldl_placeBlob]
  change
    others
        ((builder.directives.filter fun directive =>
            !isPageInRange hobArea.base hobArea.size directive) ++
          dataPages _ _ _ _) =
      _
  rw [others_append, others_remove, others_dataPages, List.append_nil]

theorem areaBytes_others (directives : List IgvmDirectiveHeader) :
    areaBytes (others directives) = areaBytes directives := by
  funext index
  have same :
      (others directives).find? (isAreaOf index) =
        directives.find? (isAreaOf index) := by
    rw [others, List.find?_filter]
    congr 1
    funext directive
    cases directive with
    | pageData => rfl
    | _ => simp [isPage]
  rw [areaBytes, areaBytes, same]

theorem insertsAt_others :
    insertsAt (others directives) gpa = insertsAt directives gpa := by
  funext directive
  cases directive with
  | parameterInsert => rw [insertsAt, insertsAt, areaBytes_others]
  | _ => rfl

theorem filter_others_insertsAt (list : List IgvmDirectiveHeader) :
    (others list).filter (insertsAt directives gpa) =
      list.filter (insertsAt directives gpa) := by
  rw [others, List.filter_filter]
  apply List.filter_congr
  intro directive _
  cases directive with
  | parameterInsert => exact Bool.and_true _
  | _ => rfl

/-- No directive is a page and an insertion. -/
theorem isPageIn_and_insertsAt (directive : IgvmDirectiveHeader) :
    (isPageIn gpa (gpa + 1) directive && insertsAt directives gpa directive) =
      false := by
  cases directive with
  | pageData => exact Bool.and_false _
  | _ => rfl

/-- A page's providers are its page directives and the areas that contain it. -/
theorem length_providers :
    (providers directives gpa).length =
      (pagesIn gpa (gpa + 1) directives).length +
        ((others directives).filter
          (insertsAt (others directives) gpa)).length := by
  have split :
      ∀ list : List IgvmDirectiveHeader,
        list.countP (provides directives gpa) =
          list.countP (isPageIn gpa (gpa + 1)) +
            list.countP (insertsAt directives gpa) := by
    intro list
    induction list with
    | nil => rfl
    | cons directive list induction =>
        have exclusive :=
          @isPageIn_and_insertsAt directives gpa directive
        rw [List.countP_cons, List.countP_cons, List.countP_cons, induction,
          provides]
        cases here : isPageIn gpa (gpa + 1) directive with
        | true =>
            rw [here, Bool.true_and] at exclusive
            rw [exclusive]
            exact Nat.add_right_comm _ _ _
        | false => exact Nat.add_assoc _ _ _
  rw [insertsAt_others, filter_others_insertsAt, providers, pagesIn,
    ← List.countP_eq_length_filter, ← List.countP_eq_length_filter,
    ← List.countP_eq_length_filter, split]

end

/-! ## The pages of the regions -/

/-- Of a list with one item present, only that item's part is left. -/
theorem flatMap_eq_of_once
    {α β : Type} {present : α → Prop} {list : List α} {part : α → List β}
    {item : α}
    (once : list.Pairwise fun left right => ¬ (present left ∧ present right))
    (absent : ∀ other ∈ list, ¬ present other → part other = [])
    (member : item ∈ list) (here : present item) :
    list.flatMap part = part item := by
  induction list with
  | nil => cases member
  | cons first list induction =>
      rcases List.pairwise_cons.1 once with ⟨firstOnce, restOnce⟩
      rcases List.forall_mem_cons.1 absent with ⟨firstAbsent, restAbsent⟩
      rw [List.flatMap_cons]
      rcases List.mem_cons.1 member with rfl | later
      · have rest : list.flatMap part = [] := by
          apply List.flatMap_eq_nil_iff.2
          intro other inRest
          apply restAbsent other inRest
          intro also
          exact firstOnce other inRest ⟨here, also⟩
        rw [rest, List.append_nil]
      · have gone : part first = [] := by
          apply firstAbsent
          intro also
          exact firstOnce item later ⟨also, here⟩
        rw [gone, List.nil_append, induction restOnce restAbsent later]

section

variable
    {ovmfMeta : OvmfMeta} {region : OvmfRegion} {gpa : Nat}
    {dataType : IgvmPageDataType}

theorem lt_of_mem_regionPages (inside : gpa ∈ regionPages region) :
    gpa < 2 ^ 64 := by
  rcases List.mem_map.1 inside with ⟨index, below, rfl⟩
  have short := (lt_pageCount_iff psize_pos).1 (List.mem_range.1 below)
  have base := region.base_lt
  have size := region.size_lt
  omega

theorem nodup_regionPages (region : OvmfRegion) :
    (regionPages region).Nodup := by
  apply List.Nodup.map ?_ List.nodup_range
  intro left right same
  exact
    Nat.eq_of_mul_eq_mul_right psize_pos (Nat.add_left_cancel same)

/-- A page is where it was put. -/
theorem pagesIn_page
    {addr : Nat} {mask : UInt32} {flags : IgvmPageDataFlags} {data : Bytes}
    (small : addr < 2 ^ 64) :
    pagesIn gpa (gpa + 1) [page addr 0 mask flags dataType data] =
      if addr = gpa then [page addr 0 mask flags dataType data] else [] := by
  have address : (UInt64.ofNat (addr + 0 * psize)).toNat = addr := by
    rw [Nat.zero_mul, Nat.add_zero]
    exact UInt64.toNat_ofNat_of_lt' small
  have inside :
      isPageIn gpa (gpa + 1) (page addr 0 mask flags dataType data) = true ↔
        addr = gpa := by
    rw [page, isPageIn, address, Bool.and_eq_true, decide_eq_true_eq,
      decide_eq_true_eq]
    omega
  by_cases same : addr = gpa
  · rw [if_pos same, pagesIn, List.filter_cons_of_pos (inside.2 same),
      List.filter_nil]
  · rw [if_neg same, pagesIn,
      List.filter_cons_of_neg (fun here => same (inside.1 here)),
      List.filter_nil]

theorem pagesIn_flatMap
    {α : Type} (start stop : Nat) (list : List α)
    (part : α → List IgvmDirectiveHeader) :
    pagesIn start stop (list.flatMap part) =
      list.flatMap fun item => pagesIn start stop (part item) :=
  List.filter_flatMap ..

theorem snpRegionPages_eq
    (sev : snpPageDataType region.etype = some dataType) :
    snpRegionPages ovmfMeta region =
      (regionPages region).flatMap fun gpa =>
        if inParamArea ovmfMeta gpa then []
        else emptyPages gpa psize sevSnpCompat dataType := by
  rw [regionPages, List.flatMap_map, snpRegionPages, sev]

/-- A region has one page at its addresses outside the parameter areas. -/
theorem length_pagesIn_snpRegionPages
    (sev : IsSev region) (inside : gpa ∈ regionPages region) :
    (pagesIn gpa (gpa + 1) (snpRegionPages ovmfMeta region)).length =
      if inParamArea ovmfMeta gpa then 0 else 1 := by
  rcases Option.isSome_iff_exists.1 sev with ⟨dataType, known⟩
  have part :
      ∀ addr ∈ regionPages region, addr ≠ gpa →
        pagesIn gpa (gpa + 1)
            (if inParamArea ovmfMeta addr then []
              else emptyPages addr psize sevSnpCompat dataType) =
          [] := by
    intro addr member other
    cases inParamArea ovmfMeta addr with
    | true => rfl
    | false =>
        exact
          (pagesIn_page (lt_of_mem_regionPages member)).trans (if_neg other)
  have once :
      (regionPages region).Pairwise fun left right =>
        ¬ (left = gpa ∧ right = gpa) := by
    apply (nodup_regionPages region).imp
    rintro left right different ⟨rfl, rfl⟩
    exact different rfl
  rw [snpRegionPages_eq known, pagesIn_flatMap,
    flatMap_eq_of_once once part inside rfl]
  cases inParamArea ovmfMeta gpa with
  | true => rfl
  | false =>
      have own :=
        @pagesIn_page gpa dataType gpa sevSnpCompat {} []
          (lt_of_mem_regionPages inside)
      rw [if_pos rfl] at own
      exact congrArg List.length own

/-- A region has no page off its addresses. -/
theorem pagesIn_snpRegionPages_eq_nil
    (outside : ¬ (IsSev region ∧ gpa ∈ regionPages region)) :
    pagesIn gpa (gpa + 1) (snpRegionPages ovmfMeta region) = [] := by
  cases known : snpPageDataType region.etype with
  | none =>
      rw [snpRegionPages, known]
      rfl
  | some dataType =>
      rw [snpRegionPages_eq known, pagesIn_flatMap]
      apply List.flatMap_eq_nil_iff.2
      intro addr member
      have other : addr ≠ gpa := by
        rintro rfl
        exact outside ⟨Option.isSome_iff_exists.2 ⟨_, known⟩, member⟩
      cases inParamArea ovmfMeta addr with
      | true => rfl
      | false =>
          exact
            (pagesIn_page (lt_of_mem_regionPages member)).trans (if_neg other)

/-- A page of a region has one page directive outside the parameter areas. -/
theorem length_pagesIn_snpPages
    (layout : AlignedMeta ovmfMeta) (known : region ∈ ovmfMeta.regions)
    (sev : IsSev region) (inside : gpa ∈ regionPages region) :
    (pagesIn gpa (gpa + 1)
        (ovmfMeta.regions.flatMap (snpRegionPages ovmfMeta))).length =
      if inParamArea ovmfMeta gpa then 0 else 1 := by
  have once :
      ovmfMeta.regions.Pairwise fun left right =>
        ¬ ((IsSev left ∧ gpa ∈ regionPages left) ∧
          IsSev right ∧ gpa ∈ regionPages right) := by
    refine layout.regions_apart.imp_of_mem ?_
    rintro left right leftKnown rightKnown apart
      ⟨⟨leftSev, inLeft⟩, rightSev, inRight⟩
    have leftAligned := layout.aligned left leftKnown (Or.inl leftSev)
    have rightAligned := layout.aligned right rightKnown (Or.inl rightSev)
    exact
      Set.disjoint_left.1 (apart leftSev rightSev)
        (span_subset_pageSpan ((mem_regionPages_iff leftAligned).1 inLeft).2)
        (span_subset_pageSpan ((mem_regionPages_iff rightAligned).1 inRight).2)
  rw [pagesIn_flatMap,
    flatMap_eq_of_once once
      (fun _ _ outside => pagesIn_snpRegionPages_eq_nil outside) known
      ⟨sev, inside⟩,
    length_pagesIn_snpRegionPages sev inside]

end

/-! ## The parameter areas -/

/-- The parameter area that is inserted. -/
def firstParamArea (ovmfMeta : OvmfMeta) : Option OvmfRegion :=
  ovmfMeta.regions.find? (·.etype = .igvmParamArea)

def inFirstArea (ovmfMeta : OvmfMeta) (gpa : Nat) : Bool :=
  (firstParamArea ovmfMeta).any fun area =>
    area.base ≤ gpa && gpa < area.base + area.size

section

variable
    {ovmfMeta : OvmfMeta} {area : OvmfRegion} {gpa : Nat}
    {front rest : List IgvmDirectiveHeader}

/-- An aligned page is in an aligned area exactly if the area holds all of it. -/
theorem page_inside_iff
    (aligned : psize ∣ area.base) (whole : psize ∣ gpa) :
    area.base ≤ gpa ∧ gpa + psize ≤ area.base + roundUp psize area.size ↔
      gpa ∈ span area := by
  constructor
  · rintro ⟨lower, upper⟩
    apply mem_span_of_mem_pageSpan aligned whole
    exact ⟨lower, lt_of_lt_of_le (Nat.lt_add_of_pos_right psize_pos) upper⟩
  · intro inside
    rcases List.mem_map.1 ((mem_regionPages_iff aligned).2 ⟨whole, inside⟩) with
      ⟨index, below, rfl⟩
    have next : (index + 1) * psize ≤ roundUp psize area.size :=
      Nat.mul_le_mul_right _ (List.mem_range.1 below)
    rw [Nat.add_one_mul] at next
    omega

theorem isAreaOf_eq_false
    {directive : IgvmDirectiveHeader} (none : isParameter directive = false)
    (index : UInt32) : isAreaOf index directive = false := by
  cases directive with
  | parameterArea => cases none
  | _ => rfl

theorem insertsAt_eq_false
    {directive : IgvmDirectiveHeader} (none : isParameter directive = false)
    (directives : List IgvmDirectiveHeader) :
    insertsAt directives gpa directive = false := by
  cases directive with
  | parameterInsert => cases none
  | _ => rfl

/-- Directives without parameters insert nothing and size nothing. -/
theorem filter_insertsAt_append
    (none : ∀ directive ∈ front, isParameter directive = false) :
    (front ++ rest).filter (insertsAt (front ++ rest) gpa) =
      rest.filter (insertsAt rest gpa) := by
  have sizes : areaBytes (front ++ rest) = areaBytes rest := by
    funext index
    have nowhere : front.find? (isAreaOf index) = Option.none := by
      apply List.find?_eq_none.2
      intro directive member
      rw [isAreaOf_eq_false (none directive member)]
      decide
    rw [areaBytes, areaBytes, List.find?_append, nowhere, Option.none_or]
  have same : insertsAt (front ++ rest) gpa = insertsAt rest gpa := by
    funext directive
    cases directive with
    | parameterInsert => rw [insertsAt, insertsAt, sizes]
    | _ => rfl
  have nothing : front.filter (insertsAt rest gpa) = [] := by
    apply List.filter_eq_nil_iff.2
    intro directive member
    rw [insertsAt_eq_false (none directive member)]
    decide
  rw [List.filter_append, same, nothing, List.nil_append]

/-- The first area is stated first and inserted last. -/
theorem igvmParams_of_first
    (first : firstParamArea ovmfMeta = some area) (mask : UInt32) :
    ∃ offsets : List IgvmDirectiveHeader,
      (∀ directive ∈ offsets,
        isParameter directive = false ∧ isPage directive = false) ∧
        igvmParams ovmfMeta mask =
          [.parameterArea (UInt64.ofNat area.size) 0 []] ++ offsets ++
            [.parameterInsert 0 (UInt64.ofNat area.base) mask] := by
  rw [firstParamArea] at first
  rw [igvmParams, first]
  refine ⟨_, ?_, rfl⟩
  intro directive member
  rcases List.mem_filterMap.1 member with ⟨region, -, offset⟩
  split at offset
  · cases offset
    exact ⟨rfl, rfl⟩
  · cases offset
    exact ⟨rfl, rfl⟩
  · cases offset

/-- The parameters insert the first area and no other. -/
theorem length_filter_insertsAt_igvmParams
    (mask : UInt32)
    (aligned : ∀ region ∈ ovmfMeta.regions, IsArea region → psize ∣ region.base)
    (whole : psize ∣ gpa) :
    ((igvmParams ovmfMeta mask).filter
        (insertsAt (igvmParams ovmfMeta mask) gpa)).length =
      if inFirstArea ovmfMeta gpa then 1 else 0 := by
  cases first : firstParamArea ovmfMeta with
  | none =>
      rw [firstParamArea] at first
      rw [igvmParams, first, inFirstArea, firstParamArea, first]
      rfl
  | some area =>
      have known := List.mem_of_find?_eq_some first
      have kind : area.etype = .igvmParamArea := by
        simpa using List.find?_some first
      have inside :=
        page_inside_iff (aligned area known (Or.inl kind)) whole
      rcases igvmParams_of_first first mask with ⟨offsets, none, parts⟩
      have size : (UInt64.ofNat area.size).toNat = area.size :=
        UInt64.toNat_ofNat_of_lt' (area.size_lt.trans (by decide))
      have base : (UInt64.ofNat area.base).toNat = area.base :=
        UInt64.toNat_ofNat_of_lt' (area.base_lt.trans (by decide))
      have bytes : areaBytes (igvmParams ovmfMeta mask) 0 = area.size := by
        rw [parts]
        exact size
      have inserted :
          insertsAt (igvmParams ovmfMeta mask) gpa
              (.parameterInsert 0 (UInt64.ofNat area.base) mask) =
            (decide (area.base ≤ gpa) &&
              decide (gpa < area.base + area.size)) := by
        rw [insertsAt, bytes, base, Bool.eq_iff_iff]
        simp only [Bool.and_eq_true, decide_eq_true_eq]
        exact inside
      have unsized :
          insertsAt (igvmParams ovmfMeta mask) gpa
              (.parameterArea (UInt64.ofNat area.size) 0 []) ≠
            true :=
        Bool.false_ne_true
      have nothing :
          offsets.filter (insertsAt (igvmParams ovmfMeta mask) gpa) = [] := by
        apply List.filter_eq_nil_iff.2
        intro directive member
        rw [insertsAt_eq_false (none directive member).1]
        decide
      generalize insertsAt (igvmParams ovmfMeta mask) gpa = inserts
        at inserted unsized nothing ⊢
      rw [inFirstArea, first, Option.any_some, parts, List.filter_append,
        List.filter_append, nothing, List.append_nil,
        List.filter_cons_of_neg unsized, List.filter_nil, List.nil_append,
        List.filter_cons, inserted]
      split
      · rfl
      · rfl

end

/-! ## The three additions -/

/-- A blob without bytes is placed at this page. -/
def EmptyBlobAt (inputs : HobInputs) (gpa : Nat) : Prop :=
  ∃ entry ∈ (hobList inputs).data, entry.blob = [] ∧ entry.addr = gpa

section

variable
    {ovmfMeta : OvmfMeta} {builder : IgvmBuilder} {inputs : HobInputs}
    {region hobArea : OvmfRegion} {gpa : Nat}

theorem snpPages_no_parameters :
    ∀ directive ∈ ovmfMeta.regions.flatMap (snpRegionPages ovmfMeta),
      isParameter directive = false := by
  intro directive member
  rcases List.mem_flatMap.1 member with ⟨region, -, inRegion⟩
  cases known : snpPageDataType region.etype with
  | none =>
      rw [snpRegionPages, known] at inRegion
      cases inRegion
  | some dataType =>
      rw [snpRegionPages_eq known] at inRegion
      rcases List.mem_flatMap.1 inRegion with ⟨addr, -, inPages⟩
      split at inPages
      · cases inPages
      · rcases List.mem_map.1 inPages with ⟨index, -, rfl⟩
        rfl

theorem pagesIn_eq_nil_of_others
    {directives : List IgvmDirectiveHeader}
    (none : ∀ directive ∈ directives, isPage directive = false) :
    pagesIn gpa (gpa + 1) directives = [] := by
  apply List.filter_eq_nil_iff.2
  intro directive member
  have other := none directive member
  cases directive with
  | pageData => cases other
  | _ => exact Bool.false_ne_true

theorem igvmParams_no_pages (mask : UInt32) :
    ∀ directive ∈ igvmParams ovmfMeta mask, isPage directive = false := by
  intro directive member
  cases first : firstParamArea ovmfMeta with
  | none =>
      rw [firstParamArea] at first
      rw [igvmParams, first] at member
      cases member
  | some area =>
      rcases igvmParams_of_first first mask with ⟨offsets, none, parts⟩
      rw [parts] at member
      rcases List.mem_append.1 member with front | last
      · rcases List.mem_append.1 front with area | offset
        · cases List.mem_singleton.1 area
          rfl
        · exact (none directive offset).2
      · cases List.mem_singleton.1 last
        rfl

/-- The page directives of a page of a region before the hand-off data. -/
theorem length_pagesIn_addOvmfIgvmParams
    (layout : AlignedMeta ovmfMeta) (fresh : Fresh ovmfMeta builder)
    (known : region ∈ ovmfMeta.regions) (sev : IsSev region)
    (inside : gpa ∈ regionPages region) :
    (pagesIn gpa (gpa + 1)
        ((builder.addOvmfSnpPages ovmfMeta).addOvmfIgvmParams
          ovmfMeta).directives).length =
      if inParamArea ovmfMeta gpa then 0 else 1 := by
  rw [addOvmfIgvmParams, addOvmfSnpPages, push_directives, push_directives,
    pagesIn_append, pagesIn_append, fresh.no_pages region known sev gpa inside,
    pagesIn_eq_nil_of_others (igvmParams_no_pages _), List.append_nil,
    List.nil_append, length_pagesIn_snpPages layout known sev inside]

/-- A page is inserted with the first parameter area and no other. -/
theorem length_filter_insertsAt
    (layout : AlignedMeta ovmfMeta) (fresh : Fresh ovmfMeta builder)
    (whole : psize ∣ gpa)
    {directives : List IgvmDirectiveHeader}
    (same :
      others directives =
        others
          ((builder.addOvmfSnpPages ovmfMeta).addOvmfIgvmParams
            ovmfMeta).directives) :
    ((others directives).filter (insertsAt (others directives) gpa)).length =
      if inFirstArea ovmfMeta gpa then 1 else 0 := by
  have none :
      ∀ directive ∈
        builder.directives ++
          ovmfMeta.regions.flatMap (snpRegionPages ovmfMeta),
        isParameter directive = false := by
    intro directive member
    rcases List.mem_append.1 member with old | new
    · exact fresh.no_parameters directive old
    · exact snpPages_no_parameters directive new
  rw [same, filter_others_insertsAt, insertsAt_others, addOvmfIgvmParams,
    addOvmfSnpPages, push_directives, push_directives,
    filter_insertsAt_append none,
    length_filter_insertsAt_igvmParams _ ?_ whole]
  intro area areaKnown isArea
  exact layout.aligned area areaKnown (Or.inr isArea)

/-! ## The hand-off data -/

/-- One address is disjoint from a set that does not hold it. -/
theorem disjoint_address {set : Set Nat} (outside : gpa ∉ set) :
    Disjoint (Set.Ico gpa (gpa + 1)) set := by
  apply Set.disjoint_left.2
  rintro address ⟨lower, upper⟩ inside
  have same : address = gpa := by omega
  exact outside (same ▸ inside)

theorem BlobsClear.fits
    (clear : BlobsClear ovmfMeta inputs) {measured : Bool}
    {placed : Nat × Bytes}
    (member : placed ∈ (hobList inputs).blobs measured) :
    placed.1 + placed.2.length ≤ 2 ^ 64 := by
  rcases mem_blobs_iff.1 member with ⟨entry, inList, -, rfl⟩
  have ends := (laid_hobList inputs).ends entry inList
  have rounded : entry.blob.length ≤ roundUp hobPageSize entry.blob.length :=
    le_roundUp (by decide) _
  have below := clear.below
  change entry.addr + entry.blob.length ≤ 2 ^ 64
  rw [IgvmDataEntry.pagesEnd] at ends
  omega

/-- No blob has a byte on a page of a region. -/
theorem BlobsClear.apart
    (clear : BlobsClear ovmfMeta inputs)
    (known : region ∈ ovmfMeta.regions) (sev : IsSev region)
    (inside : gpa ∈ pageSpan region) {measured : Bool}
    {placed : Nat × Bytes}
    (member : placed ∈ (hobList inputs).blobs measured) :
    Disjoint (Set.Ico gpa (gpa + 1))
      (Set.Ico placed.1 (placed.1 + placed.2.length)) := by
  rcases mem_blobs_iff.1 member with ⟨entry, inList, -, rfl⟩
  apply disjoint_address
  intro inData
  exact
    Set.disjoint_left.1 (clear.clear entry inList region known sev)
      (data_subset_pageRange entry inData) inside

/-- Without an empty blob at a page of a region no placement clears the page. -/
theorem BlobsClear.spares
    (clear : BlobsClear ovmfMeta inputs)
    (known : region ∈ ovmfMeta.regions) (sev : IsSev region)
    (whole : psize ∣ gpa) (inside : gpa ∈ pageSpan region)
    (spared : ¬ EmptyBlobAt inputs gpa) {measured : Bool}
    {placed : Nat × Bytes}
    (member : placed ∈ (hobList inputs).blobs measured) :
    Disjoint (Set.Ico gpa (gpa + 1)) (cleared placed) := by
  rcases mem_blobs_iff.1 member with ⟨entry, inList, -, rfl⟩
  apply disjoint_address
  intro inCleared
  by_cases empty : entry.blob = []
  · apply spared
    refine ⟨entry, inList, empty, ?_⟩
    have aligned := (laid_hobList inputs).aligned entry inList
    have lower : entry.addr ≤ gpa := inCleared.1
    have upper : gpa < entry.addr + max entry.blob.length psize := inCleared.2
    rw [empty, List.length_nil, Nat.max_eq_right (Nat.zero_le _)] at upper
    have multiple : psize ∣ gpa - entry.addr := Nat.dvd_sub whole aligned
    have short : gpa - entry.addr < psize := by omega
    have nothing := Nat.eq_zero_of_dvd_of_lt multiple short
    omega
  · exact
      Set.disjoint_left.1 (clear.clear entry inList region known sev)
        (cleared_subset_pageRange empty inCleared) inside

/-- An empty blob takes the page it is placed at. -/
theorem pagesIn_placeHobs_of_empty
    (clear : BlobsClear ovmfMeta inputs)
    (known : region ∈ ovmfMeta.regions) (sev : IsSev region)
    (inside : gpa ∈ pageSpan region) (empty : EmptyBlobAt inputs gpa) :
    pagesIn gpa (gpa + 1)
        (placeHobs builder hobArea (hobList inputs)).directives =
      [] := by
  rcases empty with ⟨entry, inList, noBytes, rfl⟩
  have taken :
      ∃ placed ∈ (hobList inputs).blobs entry.measured,
        placed.1 ≤ entry.addr ∧
          entry.addr + 1 ≤ placed.1 + max placed.2.length psize := by
    refine ⟨entry.placement, mem_blobs_iff.2 ⟨entry, inList, rfl, rfl⟩, le_rfl, ?_⟩
    exact Nat.add_le_add_left (le_max_of_le_right psize_pos) _
  rw [placeHobs]
  refine
    pagesIn_foldl_eq_nil (fun _ member => clear.fits member)
      (fun _ member => clear.apart known sev inside member) ?_
  cases measured : entry.measured with
  | false =>
      right
      rwa [measured] at taken
  | true =>
      left
      rw [measured] at taken
      exact
        pagesIn_foldl_eq_nil (fun _ member => clear.fits member)
          (fun _ member => clear.apart known sev inside member) (Or.inr taken)

/-- The builder with the hand-off list in its area. -/
def withHobs
    (builder : IgvmBuilder) (hobArea : OvmfRegion) (inputs : HobInputs) :
    IgvmBuilder :=
  (builder.removePageDataInRange hobArea.base hobArea.size).addDataPages
    hobArea.base (hobList inputs).hobs

theorem pagesIn_placeHobs_of_spared
    (clear : BlobsClear ovmfMeta inputs)
    (known : region ∈ ovmfMeta.regions) (sev : IsSev region)
    (whole : psize ∣ gpa) (inside : gpa ∈ pageSpan region)
    (spared : ¬ EmptyBlobAt inputs gpa) :
    pagesIn gpa (gpa + 1)
        (placeHobs builder hobArea (hobList inputs)).directives =
      pagesIn gpa (gpa + 1) (withHobs builder hobArea inputs).directives := by
  rw [placeHobs,
    pagesIn_foldl_of_disjoint (fun _ member => clear.fits member)
      (fun _ member => clear.spares known sev whole inside spared member),
    pagesIn_foldl_of_disjoint (fun _ member => clear.fits member)
      (fun _ member => clear.spares known sev whole inside spared member)]
  rfl

/-- The list takes the first page of its area. -/
theorem pagesIn_withHobs :
    pagesIn gpa (gpa + 1) (withHobs builder hobArea inputs).directives =
      pagesIn gpa (gpa + 1)
          (builder.directives.filter fun directive =>
            !isPageInRange hobArea.base hobArea.size directive) ++
        if hobArea.base = gpa then
          [page hobArea.base 0 builder.compatibilityMaskAll {} .normal
            (hobList inputs).hobs]
        else [] := by
  have small : hobArea.base < 2 ^ 64 := hobArea.base_lt.trans (by decide)
  change
    pagesIn gpa (gpa + 1)
        ((builder.directives.filter fun directive =>
            !isPageInRange hobArea.base hobArea.size directive) ++
          dataPages hobArea.base (hobList inputs).hobs
            builder.compatibilityMaskAll {}) =
      _
  rw [pagesIn_append, dataPages_hobs, pagesIn_page small]

theorem length_pagesIn_withHobs_base :
    (pagesIn hobArea.base (hobArea.base + 1)
        (withHobs builder hobArea inputs).directives).length =
      1 := by
  rw [pagesIn_withHobs, if_pos rfl,
    pagesIn_remove_of_subset le_rfl
      (Nat.add_le_add_left (le_max_of_le_right psize_pos) _)]
  rfl

/-- The other pages of its area are gone. -/
theorem pagesIn_withHobs_of_inside
    (other : gpa ≠ hobArea.base) (inside : gpa ∈ span hobArea) :
    pagesIn gpa (gpa + 1) (withHobs builder hobArea inputs).directives =
      [] := by
  have upper : gpa + 1 ≤ hobArea.base + max hobArea.size psize :=
    lt_of_lt_of_le inside.2 (Nat.add_le_add_left (le_max_left _ _) _)
  rw [pagesIn_withHobs, if_neg other.symm,
    pagesIn_remove_of_subset inside.1 upper, List.append_nil]

theorem pagesIn_withHobs_of_outside
    (aligned : psize ∣ hobArea.base) (whole : psize ∣ gpa)
    (outside : gpa ∉ span hobArea) :
    pagesIn gpa (gpa + 1) (withHobs builder hobArea inputs).directives =
      pagesIn gpa (gpa + 1) builder.directives := by
  have other : hobArea.base ≠ gpa := by
    rintro rfl
    exact outside base_mem_span
  rw [pagesIn_withHobs, if_neg other, List.append_nil]
  apply pagesIn_remove_of_disjoint
  apply disjoint_address
  rintro ⟨lower, upper⟩
  have multiple : psize ∣ gpa - hobArea.base := Nat.dvd_sub whole aligned
  have nonzero : 0 < gpa - hobArea.base := by omega
  have far := Nat.le_of_dvd nonzero multiple
  apply outside
  refine ⟨lower, ?_⟩
  rcases max_choice hobArea.size psize with larger | larger
  · rwa [larger] at upper
  · rw [larger] at upper
    omega

end

/-! ## When every page has one provider -/

/-- The metadata has no parameter area but the one that is inserted. -/
def OneParamArea (ovmfMeta : OvmfMeta) : Prop :=
  ∀ area ∈ ovmfMeta.regions, area.etype = .igvmParamArea →
    firstParamArea ovmfMeta = some area

/-- The area of the hand-off list is one page at most. -/
def HobAreaOnePage (ovmfMeta : OvmfMeta) : Prop :=
  ∀ hobArea, findHobArea (some ovmfMeta) = some hobArea →
    hobArea.size ≤ psize

/-- No empty blob is placed at a page of a region that is a page directive. -/
def EmptyBlobsClear (ovmfMeta : OvmfMeta) (inputs : HobInputs) : Prop :=
  ∀ region ∈ ovmfMeta.regions, IsSev region →
    ∀ gpa ∈ regionPages region, EmptyBlobAt inputs gpa →
      inParamArea ovmfMeta gpa = true

section

variable
    {ovmfMeta : OvmfMeta} {builder final : IgvmBuilder} {inputs : HobInputs}
    {region area hobArea : OvmfRegion} {gpa : Nat}

theorem inParamArea_iff :
    inParamArea ovmfMeta gpa = true ↔
      ∃ area ∈ ovmfMeta.regions,
        area.etype = .igvmParamArea ∧ gpa ∈ span area := by
  simp only [inParamArea, List.any_eq_true, Bool.and_eq_true,
    decide_eq_true_eq, and_assoc]
  rfl

theorem inFirstArea_iff :
    inFirstArea ovmfMeta gpa = true ↔
      ∃ area, firstParamArea ovmfMeta = some area ∧ gpa ∈ span area := by
  simp only [inFirstArea, Option.any_eq_true, Bool.and_eq_true,
    decide_eq_true_eq]
  rfl

theorem mem_of_firstParamArea (first : firstParamArea ovmfMeta = some area) :
    area ∈ ovmfMeta.regions ∧ area.etype = .igvmParamArea := by
  refine ⟨List.mem_of_find?_eq_some first, ?_⟩
  simpa using List.find?_some first

theorem mem_of_findHobArea (found : findHobArea (some ovmfMeta) = some hobArea) :
    hobArea ∈ ovmfMeta.regions ∧ hobArea.etype = .igvmHobArea := by
  refine ⟨List.mem_of_find?_eq_some found, ?_⟩
  simpa using List.find?_some found

theorem inParamArea_of_inFirstArea (inFirst : inFirstArea ovmfMeta gpa = true) :
    inParamArea ovmfMeta gpa = true := by
  rcases inFirstArea_iff.1 inFirst with ⟨area, first, inside⟩
  rcases mem_of_firstParamArea first with ⟨known, kind⟩
  exact inParamArea_iff.2 ⟨area, known, kind, inside⟩

/-- An address is in one area at most. -/
theorem AlignedMeta.area_unique
    (layout : AlignedMeta ovmfMeta) {left right : OvmfRegion}
    (leftKnown : left ∈ ovmfMeta.regions) (leftArea : IsArea left)
    (rightKnown : right ∈ ovmfMeta.regions) (rightArea : IsArea right)
    (inLeft : gpa ∈ span left) (inRight : gpa ∈ span right) :
    left = right := by
  by_contra different
  have symmetric :
      Std.Symm fun left right =>
        IsArea left → IsArea right → Disjoint (span left) (span right) := by
    constructor
    intro left right apart rightArea leftArea
    exact (apart leftArea rightArea).symm
  have apart :=
    layout.areas_apart.forall leftKnown rightKnown different leftArea rightArea
  exact Set.disjoint_left.1 apart inLeft inRight

/-- Every aligned address of an area is a page of a region. -/
theorem AlignedMeta.exists_region
    (layout : AlignedMeta ovmfMeta) (known : area ∈ ovmfMeta.regions)
    (isArea : IsArea area) (whole : psize ∣ gpa) (inside : gpa ∈ span area) :
    ∃ region ∈ ovmfMeta.regions, IsSev region ∧ gpa ∈ regionPages region := by
  rcases layout.areas_inside area known isArea with
    ⟨region, regionKnown, sev, subset⟩
  have aligned := layout.aligned region regionKnown (Or.inl sev)
  refine ⟨region, regionKnown, sev, (mem_regionPages_iff aligned).2 ⟨whole, ?_⟩⟩
  exact mem_span_of_mem_pageSpan aligned whole (subset inside)

theorem not_inParamArea_of_hobArea
    (layout : AlignedMeta ovmfMeta)
    (found : findHobArea (some ovmfMeta) = some hobArea)
    (inside : gpa ∈ span hobArea) : inParamArea ovmfMeta gpa = false := by
  rcases mem_of_findHobArea found with ⟨hobKnown, hobKind⟩
  rw [← Bool.not_eq_true]
  intro inArea
  rcases inParamArea_iff.1 inArea with ⟨area, known, kind, inParam⟩
  have same :=
    layout.area_unique known (Or.inl kind) hobKnown (Or.inr hobKind) inParam
      inside
  rw [same, hobKind] at kind
  cases kind

theorem addHobData_cases
    (added : addHobData builder (some ovmfMeta) inputs = .ok final) :
    (inputs.hasData = false ∧ final = builder) ∨
      inputs.hasData = true ∧
        ∃ hobArea, findHobArea (some ovmfMeta) = some hobArea ∧
          final = placeHobs builder hobArea (hobList inputs) := by
  unfold addHobData at added
  cases supplied : inputs.hasData with
  | false =>
      rw [supplied] at added
      exact Or.inl ⟨rfl, (Except.ok.inj added).symm⟩
  | true =>
      rw [supplied] at added
      cases found : findHobArea (some ovmfMeta) with
      | none =>
          rw [found] at added
          cases added
      | some hobArea =>
          rw [found] at added
          exact Or.inr ⟨rfl, hobArea, rfl, (Except.ok.inj added).symm⟩

/-- With one parameter area at most, every area is the inserted one. -/
theorem oneParamArea_iff (layout : AlignedMeta ovmfMeta) :
    OneParamArea ovmfMeta ↔
      ∀ region ∈ ovmfMeta.regions, IsSev region →
        ∀ gpa ∈ regionPages region,
          inParamArea ovmfMeta gpa = true → inFirstArea ovmfMeta gpa = true := by
  constructor
  · intro one region _ _ gpa _ inArea
    rcases inParamArea_iff.1 inArea with ⟨area, known, kind, inside⟩
    exact inFirstArea_iff.2 ⟨area, one area known kind, inside⟩
  · intro inserted area known kind
    have aligned := layout.aligned area known (Or.inr (Or.inl kind))
    rcases layout.exists_region known (Or.inl kind) aligned base_mem_span with
      ⟨region, regionKnown, sev, inside⟩
    have inFirst :=
      inserted region regionKnown sev area.base inside
        (inParamArea_iff.2 ⟨area, known, kind, base_mem_span⟩)
    rcases inFirstArea_iff.1 inFirst with ⟨first, found, inFirstSpan⟩
    rcases mem_of_firstParamArea found with ⟨firstKnown, firstKind⟩
    have same :=
      layout.area_unique firstKnown (Or.inl firstKind) known (Or.inl kind)
        inFirstSpan base_mem_span
    rw [found, same]

/-- Without hand-off data only further parameter areas lose their pages. -/
theorem length_providers_addOvmfIgvmParams
    (layout : AlignedMeta ovmfMeta) (fresh : Fresh ovmfMeta builder)
    (known : region ∈ ovmfMeta.regions) (sev : IsSev region)
    (inside : gpa ∈ regionPages region) :
    (providers
        ((builder.addOvmfSnpPages ovmfMeta).addOvmfIgvmParams
          ovmfMeta).directives gpa).length =
      (if inParamArea ovmfMeta gpa then 0 else 1) +
        if inFirstArea ovmfMeta gpa then 1 else 0 := by
  have aligned := layout.aligned region known (Or.inl sev)
  have whole := ((mem_regionPages_iff aligned).1 inside).1
  rw [length_providers, length_filter_insertsAt layout fresh whole rfl,
    length_pagesIn_addOvmfIgvmParams layout fresh known sev inside]

theorem one_provider_iff (ovmfMeta : OvmfMeta) (gpa : Nat) :
    ((if inParamArea ovmfMeta gpa then 0 else 1) +
        if inFirstArea ovmfMeta gpa then 1 else 0) = 1 ↔
      (inParamArea ovmfMeta gpa = true → inFirstArea ovmfMeta gpa = true) := by
  have included := @inParamArea_of_inFirstArea ovmfMeta gpa
  cases inFirst : inFirstArea ovmfMeta gpa with
  | true =>
      rw [included inFirst]
      decide
  | false =>
      cases inParamArea ovmfMeta gpa with
      | true => decide
      | false => decide

theorem coveredOnce_addOvmfIgvmParams_iff
    (layout : AlignedMeta ovmfMeta) (fresh : Fresh ovmfMeta builder) :
    CoveredOnce ovmfMeta
        ((builder.addOvmfSnpPages ovmfMeta).addOvmfIgvmParams
          ovmfMeta).directives ↔
      OneParamArea ovmfMeta := by
  rw [oneParamArea_iff layout, CoveredOnce]
  refine forall₅_congr ?_
  intro region known sev gpa inside
  rw [length_providers_addOvmfIgvmParams layout fresh known sev inside,
    one_provider_iff]

end

section

variable
    {ovmfMeta : OvmfMeta} {builder : IgvmBuilder} {inputs : HobInputs}
    {region hobArea : OvmfRegion} {gpa : Nat}

/-- The providers of a page of a region after the hand-off data. -/
theorem length_providers_placeHobs
    (layout : AlignedMeta ovmfMeta) (fresh : Fresh ovmfMeta builder)
    (whole : psize ∣ gpa) :
    (providers
        (placeHobs
          ((builder.addOvmfSnpPages ovmfMeta).addOvmfIgvmParams ovmfMeta)
          hobArea (hobList inputs)).directives gpa).length =
      (pagesIn gpa (gpa + 1)
          (placeHobs
            ((builder.addOvmfSnpPages ovmfMeta).addOvmfIgvmParams ovmfMeta)
            hobArea (hobList inputs)).directives).length +
        if inFirstArea ovmfMeta gpa then 1 else 0 := by
  rw [length_providers,
    length_filter_insertsAt layout fresh whole (others_placeHobs _ _ _)]

/-- A page that an empty blob takes away is left to the inserted area. -/
theorem one_insert_iff_of_empty
    (layout : AlignedMeta ovmfMeta)
    (found : findHobArea (some ovmfMeta) = some hobArea)
    (empty : EmptyBlobAt inputs gpa) :
    (if inFirstArea ovmfMeta gpa then 1 else 0) = 1 ↔
      (inParamArea ovmfMeta gpa = true → inFirstArea ovmfMeta gpa = true) ∧
        (EmptyBlobAt inputs gpa → inParamArea ovmfMeta gpa = true) ∧
          (gpa ∈ span hobArea → gpa = hobArea.base) := by
  constructor
  · intro counted
    have inFirst : inFirstArea ovmfMeta gpa = true := by
      by_contra missing
      rw [if_neg missing] at counted
      cases counted
    have inArea := inParamArea_of_inFirstArea inFirst
    refine ⟨fun _ => inFirst, fun _ => inArea, ?_⟩
    intro inHobs
    rw [not_inParamArea_of_hobArea layout found inHobs] at inArea
    cases inArea
  · rintro ⟨inserted, taken, -⟩
    rw [if_pos (inserted (taken empty))]

/-- Which pages have one provider after the hand-off data. -/
theorem one_provider_placeHobs_iff
    (layout : AlignedMeta ovmfMeta) (fresh : Fresh ovmfMeta builder)
    (clear : BlobsClear ovmfMeta inputs)
    (found : findHobArea (some ovmfMeta) = some hobArea)
    (known : region ∈ ovmfMeta.regions) (sev : IsSev region)
    (inside : gpa ∈ regionPages region) :
    (providers
        (placeHobs
          ((builder.addOvmfSnpPages ovmfMeta).addOvmfIgvmParams ovmfMeta)
          hobArea (hobList inputs)).directives gpa).length = 1 ↔
      (inParamArea ovmfMeta gpa = true → inFirstArea ovmfMeta gpa = true) ∧
        (EmptyBlobAt inputs gpa → inParamArea ovmfMeta gpa = true) ∧
          (gpa ∈ span hobArea → gpa = hobArea.base) := by
  have aligned := layout.aligned region known (Or.inl sev)
  rcases (mem_regionPages_iff aligned).1 inside with ⟨whole, inSpan⟩
  have inPages := span_subset_pageSpan inSpan
  have hobAligned :=
    layout.aligned hobArea (mem_of_findHobArea found).1
      (Or.inr (Or.inr (mem_of_findHobArea found).2))
  rw [length_providers_placeHobs layout fresh whole]
  by_cases empty : EmptyBlobAt inputs gpa
  · rw [pagesIn_placeHobs_of_empty clear known sev inPages empty,
      List.length_nil, Nat.zero_add]
    exact one_insert_iff_of_empty layout found empty
  · rw [pagesIn_placeHobs_of_spared clear known sev whole inPages empty]
    by_cases inHobs : gpa ∈ span hobArea
    · have outside := not_inParamArea_of_hobArea layout found inHobs
      have notFirst : inFirstArea ovmfMeta gpa = false := by
        rw [← Bool.not_eq_true]
        intro inFirst
        rw [inParamArea_of_inFirstArea inFirst] at outside
        cases outside
      rw [notFirst, outside]
      by_cases first : gpa = hobArea.base
      · subst first
        rw [length_pagesIn_withHobs_base]
        simp [empty]
      · rw [pagesIn_withHobs_of_inside first inHobs]
        simp [inHobs, first]
    · rw [pagesIn_withHobs_of_outside hobAligned whole inHobs,
        length_pagesIn_addOvmfIgvmParams layout fresh known sev inside,
        one_provider_iff]
      constructor
      · intro inserted
        exact
          ⟨inserted, fun isEmpty => absurd isEmpty empty,
            fun inArea => absurd inArea inHobs⟩
      · exact And.left

/-- The pages of the hand-off area are one, or not. -/
theorem hobAreaOnePage_iff
    (layout : AlignedMeta ovmfMeta)
    (found : findHobArea (some ovmfMeta) = some hobArea) :
    HobAreaOnePage ovmfMeta ↔
      ∀ region ∈ ovmfMeta.regions, IsSev region →
        ∀ gpa ∈ regionPages region, gpa ∈ span hobArea → gpa = hobArea.base := by
  rcases mem_of_findHobArea found with ⟨hobKnown, hobKind⟩
  have hobAligned := layout.aligned hobArea hobKnown (Or.inr (Or.inr hobKind))
  constructor
  · intro one region known sev gpa inside inHobs
    have aligned := layout.aligned region known (Or.inl sev)
    have whole := ((mem_regionPages_iff aligned).1 inside).1
    have small := one hobArea found
    have lower : hobArea.base ≤ gpa := inHobs.1
    have upper : gpa < hobArea.base + hobArea.size := inHobs.2
    have multiple : psize ∣ gpa - hobArea.base := Nat.dvd_sub whole hobAligned
    have nothing := Nat.eq_zero_of_dvd_of_lt multiple (by omega)
    omega
  · intro first hobArea' found'
    rw [found] at found'
    cases found'
    by_contra larger
    have inHobs : hobArea.base + psize ∈ span hobArea :=
      ⟨Nat.le_add_right _ _, Nat.add_lt_add_left (not_le.1 larger) _⟩
    have whole : psize ∣ hobArea.base + psize :=
      Nat.dvd_add hobAligned (Nat.dvd_refl _)
    rcases layout.exists_region hobKnown (Or.inr hobKind) whole inHobs with
      ⟨region, known, sev, inside⟩
    have same := first region known sev _ inside inHobs
    have positive := psize_pos
    omega

/--
After the three additions every page of every region has one provider exactly
if there is one parameter area at most and, where there is hand-off data, its
area is one page at most and no empty blob is placed at a page directive.
-/
theorem coveredOnce_iff
    {final : IgvmBuilder}
    (layout : AlignedMeta ovmfMeta) (fresh : Fresh ovmfMeta builder)
    (clear : BlobsClear ovmfMeta inputs)
    (added :
      addHobData
          ((builder.addOvmfSnpPages ovmfMeta).addOvmfIgvmParams ovmfMeta)
          (some ovmfMeta) inputs =
        .ok final) :
    CoveredOnce ovmfMeta final.directives ↔
      OneParamArea ovmfMeta ∧
        (inputs.hasData = true →
          HobAreaOnePage ovmfMeta ∧ EmptyBlobsClear ovmfMeta inputs) := by
  rcases addHobData_cases added with
    ⟨nothing, rfl⟩ | ⟨supplied, hobArea, found, rfl⟩
  · rw [coveredOnce_addOvmfIgvmParams_iff layout fresh, nothing]
    simp
  · rw [supplied, oneParamArea_iff layout, hobAreaOnePage_iff layout found,
      EmptyBlobsClear]
    constructor
    · intro covered
      have pages :
          ∀ region ∈ ovmfMeta.regions, IsSev region →
            ∀ gpa ∈ regionPages region, _ :=
        fun region known sev gpa inside =>
          (one_provider_placeHobs_iff layout fresh clear found known sev
            inside).1 (covered region known sev gpa inside)
      refine ⟨?_, fun _ => ⟨?_, ?_⟩⟩
      · intro region known sev gpa inside
        exact (pages region known sev gpa inside).1
      · intro region known sev gpa inside
        exact (pages region known sev gpa inside).2.2
      · intro region known sev gpa inside
        exact (pages region known sev gpa inside).2.1
    · rintro ⟨one, handed⟩ region known sev gpa inside
      rcases handed rfl with ⟨first, taken⟩
      exact
        (one_provider_placeHobs_iff layout fresh clear found known sev
          inside).2
          ⟨one region known sev gpa inside, taken region known sev gpa inside,
            first region known sev gpa inside⟩

end

/-! ## A region with two areas -/

/-- Four pages of memory at 8 MB. -/
def fourPages : OvmfRegion :=
  { base := 0x800000, size := 0x4000, etype := .sevMemory,
    base_lt := by decide, size_lt := by decide, size_pos := by decide }

/-- Its second page. -/
theorem onePage_lt : 0x1000 < 2 ^ 32 := by decide

theorem onePage_pos : 0 < 0x1000 := by decide

def paramArea : OvmfRegion :=
  { base := 0x801000, size := 0x1000, etype := .igvmParamArea,
    base_lt := by decide, size_lt := onePage_lt, size_pos := onePage_pos }

def secondParamArea : OvmfRegion :=
  { paramArea with base := 0x802000, base_lt := by decide }

def onePageHobArea : OvmfRegion :=
  { secondParamArea with etype := .igvmHobArea }

def twoPageHobArea : OvmfRegion :=
  { onePageHobArea with
    size := 0x2000, size_lt := by decide, size_pos := by decide }

/-- The region, its parameter area and one more area behind that. -/
def areasMeta (area : OvmfRegion) : OvmfMeta :=
  { regions := [fourPages, paramArea, area] }

def oneByteKernel : HobInputs :=
  { kernel := some [1] }

section

variable {area : OvmfRegion}

theorem alignedMeta_areasMeta
    (isArea : IsArea area) (noPages : ¬ IsSev area)
    (base : area.base = 0x802000) (size : area.size ≤ 0x2000) :
    AlignedMeta (areasMeta area) where
  aligned := by
    intro region member _
    simp only [areasMeta, List.mem_cons, List.not_mem_nil, or_false] at member
    rcases member with rfl | rfl | rfl
    · decide
    · decide
    · rw [base]
      decide
  regions_apart := by
    refine List.Pairwise.cons ?_ (List.Pairwise.cons ?_ (List.pairwise_singleton _ _))
    · intro region member _ sev
      rcases List.mem_pair.1 member with rfl | rfl
      · cases sev
      · exact absurd sev noPages
    · intro region _ sev
      cases sev
  areas_apart := by
    refine List.Pairwise.cons ?_ (List.Pairwise.cons ?_ (List.pairwise_singleton _ _))
    · intro region _ notArea
      exact absurd notArea (by decide)
    · intro region member _ _
      cases List.mem_singleton.1 member
      apply disjoint_Ico_of_le
      rw [base]
      decide
  areas_inside := by
    intro region member inArea
    refine ⟨fourPages, List.mem_cons_self, rfl, ?_⟩
    have pages : pageSpan fourPages = Set.Ico 0x800000 0x804000 := rfl
    rw [pages]
    simp only [areasMeta, List.mem_cons, List.not_mem_nil, or_false] at member
    rcases member with rfl | rfl | rfl
    · exact absurd inArea (by decide)
    · exact Set.Ico_subset_Ico (by decide) (by decide)
    · apply Set.Ico_subset_Ico
      · omega
      · omega

theorem fresh_areasMeta : Fresh (areasMeta area) {} where
  no_parameters := by
    intro directive impossible
    cases impossible
  no_pages := by
    intro region _ _ gpa _
    rfl

theorem blobsClear_areasMeta (noPages : ¬ IsSev area) :
    BlobsClear (areasMeta area) oneByteKernel where
  below := by decide
  clear := by
    intro entry member region known sev
    have starts := (laid_hobList oneByteKernel).starts entry member
    simp only [areasMeta, List.mem_cons, List.not_mem_nil, or_false] at known
    rcases known with rfl | rfl | rfl
    · apply Disjoint.symm
      apply disjoint_Ico_of_le
      exact le_trans (by decide) starts
    · cases sev
    · exact absurd sev noPages

end

/-- A hand-off area of one page and a kernel of one byte. -/
theorem coveredOnce_onePage :
    ∃ final,
      addHobData
          ((({} : IgvmBuilder).addOvmfSnpPages
            (areasMeta onePageHobArea)).addOvmfIgvmParams
            (areasMeta onePageHobArea))
          (some (areasMeta onePageHobArea)) oneByteKernel =
        .ok final ∧
      CoveredOnce (areasMeta onePageHobArea) final.directives := by
  have layout : AlignedMeta (areasMeta onePageHobArea) :=
    alignedMeta_areasMeta (by decide) (by decide) rfl (by decide)
  have clear : BlobsClear (areasMeta onePageHobArea) oneByteKernel :=
    blobsClear_areasMeta (by decide)
  refine ⟨_, rfl, (coveredOnce_iff layout fresh_areasMeta clear rfl).2 ?_⟩
  refine ⟨?_, fun _ => ⟨?_, ?_⟩⟩
  · intro area member kind
    simp only [areasMeta, List.mem_cons, List.not_mem_nil, or_false] at member
    rcases member with rfl | rfl | rfl
    · cases kind
    · rfl
    · cases kind
  · intro hobArea found
    cases found
    decide
  · rintro region - - gpa - ⟨entry, member, empty, -⟩
    cases List.mem_singleton.1 member
    cases empty

/--
Of two parameter areas the second is in no directive, and the second page of a
hand-off area is in none.
-/
theorem not_coveredOnce :
    (AlignedMeta (areasMeta secondParamArea) ∧
      ∃ final,
        addHobData
            ((({} : IgvmBuilder).addOvmfSnpPages
              (areasMeta secondParamArea)).addOvmfIgvmParams
              (areasMeta secondParamArea))
            (some (areasMeta secondParamArea)) {} =
          .ok final ∧
        providers final.directives 0x802000 = []) ∧
    AlignedMeta (areasMeta twoPageHobArea) ∧
      BlobsClear (areasMeta twoPageHobArea) oneByteKernel ∧
        ∃ final,
          addHobData
              ((({} : IgvmBuilder).addOvmfSnpPages
                (areasMeta twoPageHobArea)).addOvmfIgvmParams
                (areasMeta twoPageHobArea))
              (some (areasMeta twoPageHobArea)) oneByteKernel =
            .ok final ∧
          providers final.directives 0x803000 = [] ∧
            ¬ CoveredOnce (areasMeta twoPageHobArea) final.directives := by
  refine ⟨⟨?_, _, rfl, by decide +kernel⟩, ?_, ?_, _, rfl, ?_, ?_⟩
  · exact alignedMeta_areasMeta (by decide) (by decide) rfl (by decide)
  · exact alignedMeta_areasMeta (by decide) (by decide) rfl (by decide)
  · exact blobsClear_areasMeta (by decide)
  · decide +kernel
  · intro covered
    have one :=
      covered fourPages List.mem_cons_self rfl 0x803000 (by decide)
    revert one
    decide +kernel

end Confos.Igvm.PageCover

import Recount.Proofs.Deduplication
import Recount.Proofs.Fallback

/-!
# Quantities of the stock

Items, stock, costs and prices may all have columns that are read as quantities, and may name an
item any number of times. The quantities of a load are those of the stock alone, each of them
counted once; of everything else the first value counts that is given in the order of the data sets.
-/

namespace Recount

open Concurrent (Exchange)
open Recount.Action (Ends)

namespace ItemRecord

/-- The record without its quantity. -/
def unquantified (r : ItemRecord) : ItemRecord := { r with systemQty := none }

variable {code : String} {records : List ItemRecord}

theorem ofCode_map_unquantified :
    ofCode code (records.map unquantified) = (ofCode code records).map unquantified :=
  List.filter_map

theorem quantities_map_unquantified : quantities (records.map unquantified) = [] := by
  simp [quantities, unquantified]

/-- Without their quantities, records say all else that they say. -/
theorem contentOf_unquantified : contentOf (ofCode code (records.map unquantified)) =
    { contentOf (ofCode code records) with systemQty := none } := by
  rw [ofCode_map_unquantified]
  simp only [contentOf, total?, quantities_map_unquantified, List.findSome?_map]
  rfl

end ItemRecord

namespace Loading

open ItemRecord

/-- The records of the usable rows. -/
def Reading.usable (x : Reading) : List ItemRecord :=
  x.rows.filterMap fun row => (Transform.ofRow x.mapping.fields row).toOption.join

/-- The records of the usable rows of a data set; there are none without a mapping. -/
def usable (reading : Dataset → Option Reading) (d : Dataset) : List ItemRecord :=
  ((reading d).map Reading.usable).getD []

/-- The first value of a field in the usable rows with a code, in the order of the data sets. -/
def firstOf {α : Type} (reading : Dataset → Option Reading) (code : String)
    (field : ItemRecord → Option α) : Option α :=
  (ofCode code (datasets.flatMap (usable reading))).findSome? field

/-- What is known of the item with a code is the sum of the quantities of the stock, and of
everything else the first value that is given. -/
structure Described (reading : Dataset → Option Reading) (code : String) (known : Item.Known) :
    Prop where
  systemQty : known.systemQty.value = (quantities (ofCode code (usable reading .stock))).sum
  name : known.name = (firstOf reading code (·.name)).getD code
  uom : known.uom = firstOf reading code (·.uom)
  packQty : known.packQty = firstOf reading code (·.packQty)
  cost : known.cost = firstOf reading code (·.cost)
  price : known.price = firstOf reading code (·.price)
  barcodes : known.barcodes = firstOf reading code (·.barcodes)
  category : known.category = firstOf reading code (·.category)
  brand : known.brand = firstOf reading code (·.brand)

section Readings

variable {sources : Sources} {tenant : Id} {limit : Nat} {past : List Exchange}
  {reading : Dataset → Option Reading} {batch : Batch} {code : String}

/-- Only the stock keeps its quantities. -/
theorem ReadFor.records_eq (h : ReadFor sources tenant limit past reading batch) :
    batch.records = (usable reading .items).map unquantified ++ (usable reading .stock ++
      ((usable reading .cost).map unquantified ++ (usable reading .price).map unquantified)) := by
  have hpart : ∀ d, ((reading d).map fun x =>
      if d = .stock then x.batch.records else x.batch.withoutQuantities.records).getD [] =
        if d = .stock then usable reading d else (usable reading d).map unquantified := by
    intro d
    unfold usable
    cases reading d with
    | none => simp
    | some x =>
      have hrecords : x.batch.records = x.usable := Batch.ofRows_records
      simp only [Batch.withoutQuantities, hrecords, Option.map_some, Option.getD_some]
      rfl
  rw [h.records]
  simp only [hpart]
  simp [datasets]

/-- What the records of a code say together: the quantities of the stock, and all else in the order
of the data sets. -/
theorem ReadFor.contentOf_eq (h : ReadFor sources tenant limit past reading batch) :
    contentOf (ofCode code batch.records) =
      { contentOf (ofCode code (datasets.flatMap (usable reading))) with
        systemQty := total? (ofCode code (usable reading .stock)) } := by
  rw [h.records_eq]
  simp only [ofCode_append, contentOf_append, contentOf_unquantified, datasets, List.flatMap_cons,
    List.flatMap_nil, List.append_nil, Content.join]
  simp [contentOf]

/-- The quantities that are added are those of the stock. -/
theorem ReadFor.addsExactly_iff (h : ReadFor sources tenant limit past reading batch) :
    AddsExactly batch.records ↔ AddsExactly (usable reading .stock) := by
  have hquantities : ∀ code, quantities (ofCode code batch.records) =
      quantities (ofCode code (usable reading .stock)) := by
    intro code
    rw [h.records_eq]
    simp only [ofCode_append, quantities_append, ofCode_map_unquantified,
      quantities_map_unquantified, List.nil_append, List.append_nil]
  simp only [AddsExactly, hquantities]

theorem ReadFor.codes (h : ReadFor sources tenant limit past reading batch) :
    batch.records.map (·.code) = (datasets.flatMap (usable reading)).map (·.code) := by
  rw [h.records_eq]
  simp [datasets, unquantified, Function.comp_def]

end Readings

section Items

variable {sources : Sources} {tenant count : Id} {r : LoadRequest} {c : Count} {limit : Nat}
  {read storing : List Exchange} {rest : Program Request Request.Answer (Except Error Summary)}
  {reading : Dataset → Option Reading} {batch : Batch} {m : ItemRecord}

/-- A record says of its item what was gathered for its code. -/
theorem ReadFor.described (h : ReadFor sources tenant limit read reading batch)
    (hcontent : m.content = contentOf (ofCode m.code batch.records)) :
    Described reading m.code m.known := by
  rw [h.contentOf_eq] at hcontent
  simp only [content, contentOf, Content.mk.injEq] at hcontent
  obtain ⟨hname, hqty, huom, hpack, hcost, hprice, hbarcodes, hcategory, hbrand⟩ := hcontent
  exact ⟨value_getD_systemQty hqty, congrArg (Option.getD · m.code) hname, huom, hpack, hcost, hprice,
    hbarcodes, hcategory, hbrand⟩

/-- After the active mappings were read, what remains is to store what came of them. -/
theorem reaches_read (hmapping : r.mapping = none) (hopen : c.status.acceptsItems = true)
    (hlimit : rowLimit sources r.limit = .ok limit)
    (hread : Ends (loadConfigured sources tenant limit) read (.ok (some batch))) :
    (loadItems sources tenant count r).run.Reaches (read ++ [lookup tenant count c])
      (storeBatch c (r.place c) .configuredMappings
        [attemptedOf .configuredMappings "" (.ok (some batch))] batch).run := by
  have hfetch : Ends (fetch sources tenant r) read (.ok ⟨.configuredMappings,
      [attemptedOf .configuredMappings "" (.ok (some batch))], some batch⟩) := by
    unfold fetch
    rw [hmapping]
    refine Action.ends_ok_bind.mpr ⟨limit, [], read, (List.append_nil _).symm,
      Action.ends_check.mpr ⟨rfl, hlimit.symm⟩, ?_⟩
    refine Action.ends_ok_bind.mpr ⟨.ok (some batch), read, [], rfl,
      Action.ends_attempt.mpr ⟨_, rfl, hread⟩, Action.ends_pure.mpr ⟨rfl, rfl⟩⟩
  rw [loadItems_eq_bind]
  exact (Program.Reaches.bind_left (ends_editableCount.mpr ⟨rfl, hopen⟩)).trans
    (Program.Reaches.bind_left hfetch)

/-- A load that could read the active mappings stores one item for each code of a usable row. The
item has the sum of the quantities of the stock, whatever quantities the other data sets give, and
of everything else the first value that is given in the order of the data sets. -/
theorem load_quantities_of_stock (hmapping : r.mapping = none)
    (hopen : c.status.acceptsItems = true) (hlimit : rowLimit sources r.limit = .ok limit)
    (hread : Ends (loadConfigured sources tenant limit) read (.ok (some batch)))
    (hpast : (loadItems sources tenant count r).run.Reaches
      (storing ++ read ++ [lookup tenant count c]) rest) :
    ∃ reading, ReadFor sources tenant limit read reading batch ∧
      (AddsExactly (usable reading .stock) →
        (∀ u ∈ upserts storing, u.1.key = ⟨c.id, r.place c, u.1.code, c.currentVersion⟩ ∧
          Described reading u.1.code u.1.known ∧
          ∀ (s : Store) supply i outcome s', s.upsertItem u.1 supply = .ok ((i, outcome), s') →
            i ∈ s'.items ∧ i.key = u.1.key ∧ Described reading i.code i.known) ∧
        ∀ result, rest = .done result → ∃ s, result = .ok s ∧ s.source = .configuredMappings ∧
          (upserts storing).map (·.1.code) =
            ((datasets.flatMap (usable reading)).map (·.code)).eraseDups) := by
  obtain ⟨reading, hreading⟩ := ends_loadConfigured hread
  refine ⟨reading, hreading, fun hexact => ?_⟩
  rw [List.append_assoc] at hpast
  have hstoring := (reaches_read hmapping hopen hlimit hread).rest hpast
  obtain ⟨merged, hmerged, hgathered⟩ := (hreading.addsExactly_iff.mpr hexact).exists_dedupe
  rcases reaches_storeRecords hstoring with ⟨rfl, o, rfl⟩ | ⟨_, hsame, hstored⟩
  · exact ⟨List.forall_mem_nil _, by rintro _ ⟨⟩⟩
  cases hmerged.symm.trans hsame
  obtain ⟨stored, others, rfl, hmade, hend⟩ := reaches_storeAll hstored
  refine ⟨fun u hu => ?_, fun result heq => ?_⟩
  · obtain ⟨m, hm, id, time, hu⟩ := exists_mem_of_forall₂ hmade hu
    have hkey : u.1.key = ⟨c.id, r.place c, u.1.code, c.currentVersion⟩ := by rw [hu]; rfl
    have hdescribed : Described reading u.1.code u.1.known := by
      rw [hu]
      exact hreading.described (of_mem_forall₂ hgathered (List.mem_append_left _ hm))
    refine ⟨hkey, hdescribed, fun s supply i outcome s' hanswer => ?_⟩
    have hputs := Store.putsItem_of_upsertItem hanswer
    have hcode : i.code = u.1.code := congrArg Item.Key.code hputs.key
    refine ⟨?_, hputs.key, ?_⟩
    · rw [hputs.items]
      exact mem_putBy_self
    · rwa [hputs.known, hcode]
  · obtain ⟨rfl, rfl⟩ := hend result heq
    refine ⟨_, rfl, rfl, ?_⟩
    rw [← hreading.codes, ← hgathered.codes, List.append_nil, codes_of_madeOf hmade]

end Items

section Overlapping

open Concurrent (Surroundings)

/-- The data sets are about the same items, and all of them give quantities; one row has no code. -/
def overlapping : Surroundings :=
  answering [
    (3, [[("code", .str "A"), ("name", .str "Item A"), ("qty", .str "7")],
      [("code", .str "A"), ("name", .str "other"), ("price", .str "9")],
      [("name", .str "no code"), ("qty", .str "1")],
      [("code", .str "B"), ("name", .str "Item B")]]),
    (6, [[("code", .str "A"), ("qty", .str "3"), ("cost", .str "2.5")],
      [("code", .str "A"), ("qty", .str "2.25")],
      [("code", .str "C"), ("qty", .str "1")]]),
    (10, [[("code", .str "A"), ("qty", .str "100"), ("cost", .str "1.5")],
      [("code", .str "B"), ("qty", .str "50"), ("cost", .str "4")]]),
    (14, [[("code", .str "A"), ("qty", .str "1000"), ("price", .str "8")]])]

/-- What is read for the active mappings. -/
def overlappingRead : Action (Option Batch) := loadConfigured legacySources (.ofNat 1) 5000

def overlappingBatch : Batch :=
  ((overlapping.perform overlappingRead allMapped.store).1.toOption.bind Except.toOption).join.get
    (by decide +kernel)

/-- The count into which items are loaded. -/
def mappedCount : Count :=
  (allMapped.store.count? (.ofNat 1) (.ofNat 1000)).get (by decide +kernel)

/-- What is stored of the batch. -/
def overlappingStored : Action Summary :=
  storeBatch mappedCount mappedCount.warehouse .configuredMappings
    [attemptedOf .configuredMappings "" (.ok (some overlappingBatch))] overlappingBatch

theorem addsExactly_overlapping : AddsExactly overlappingBatch.records := by
  refine (sumsDenoted_of_sublists [.zero, .ofParts 1 0, .ofParts 3 0, .ofParts 225 2, .ofParts 4 0,
    .ofParts 325 2, .ofParts 525 2, .ofParts 625 2] ?_).addsExactly
  decide +kernel

theorem load_quantities_of_stock_overlapping : ∃ read storing s reading s' drawn',
    Ends overlappingRead read (.ok (some overlappingBatch)) ∧
      unnamedLoad.run.Reaches (storing ++ read ++ [lookup (.ofNat 1) (.ofNat 1000) mappedCount])
        (.done (.ok s)) ∧
      (ReadFor legacySources (.ofNat 1) 5000 read reading overlappingBatch ∧
        AddsExactly (usable reading .stock) ∧
        (∀ u ∈ upserts storing, Described reading u.1.code u.1.known) ∧
        (upserts storing).map (·.1.code) =
          ((datasets.flatMap (usable reading)).map (·.code)).eraseDups) ∧
      Passes allMapped.store allMapped.drawn storing s' drawn' ∧
      s'.items.map (fun i => (i.code, i.name, i.systemQty, i.cost, i.price)) =
        [("A", "Item A", .ofParts 525 2, some (.ofParts 25 1), some (.ofParts 9 0)),
          ("B", "Item B", .zero, some (.ofParts 4 0), none),
          ("C", "C", .ofParts 1 0, none, none)] := by
  have hfreshRead : overlapping.FreshFor overlappingRead.run allMapped.store allMapped.drawn 0 := by
    decide +kernel
  have hfresh : overlapping.FreshFor overlappingStored.run allMapped.store allMapped.drawn 0 := by
    decide +kernel
  have hitems : (overlapping.perform overlappingStored allMapped.store).2.items.map
      (fun i => (i.code, i.name, i.systemQty, i.cost, i.price)) =
        [("A", "Item A", .ofParts 525 2, some (.ofParts 25 1), some (.ofParts 9 0)),
          ("B", "Item B", .zero, some (.ofParts 4 0), none),
          ("C", "C", .ofParts 1 0, none, none)] := by decide +kernel
  have hopen : mappedCount.status.acceptsItems = true := by decide +kernel
  obtain ⟨read, _, hread, -⟩ := ends_perform hfreshRead
    (Option.join_eq_some_iff.mp (Option.some_get (by decide +kernel)).symm)
  obtain ⟨s, hs⟩ := Option.isSome_iff_exists.mp (by decide +kernel :
    ((overlapping.perform overlappingStored allMapped.store).1.toOption.bind
      Except.toOption).isSome = true)
  obtain ⟨storing, drawn', hstored, hpasses⟩ := ends_perform hfresh hs
  have hpast : unnamedLoad.run.Reaches
      (storing ++ read ++ [lookup (.ofNat 1) (.ofNat 1000) mappedCount]) (.done (.ok s)) := by
    rw [List.append_assoc]
    exact (reaches_read rfl hopen rfl hread).trans hstored
  obtain ⟨reading, hreading, h⟩ := load_quantities_of_stock rfl hopen rfl hread hpast
  have hexact := hreading.addsExactly_iff.mp addsExactly_overlapping
  obtain ⟨hitem, hend⟩ := h hexact
  obtain ⟨_, -, -, hcodes⟩ := hend _ rfl
  exact ⟨read, storing, s, reading, _, drawn', hread, hpast,
    ⟨hreading, hexact, fun u hu => (hitem u hu).2.1, hcodes⟩, hpasses, hitems⟩

end Overlapping

end Loading
end Recount

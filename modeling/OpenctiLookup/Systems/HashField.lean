import OpenctiLookup.Defang
import OpenctiLookup.Wazuh.Extraction

/-! The `Hashes` field of Sysmon: digests under the names of their algorithms, separated by
commas. -/
namespace OpenctiLookup
open Python Wazuh

/-- `SHA1=...`. -/
structure HashEntry where
  name : Str
  digest : Str
  noEquals : '=' ∉ name
  hex : ∀ c ∈ digest, isHexDigit c = true

def HashEntry.text (entry : HashEntry) : Str := entry.name ++ "=" ++ entry.digest

def hashField (entries : List HashEntry) : Str := join "," (entries.map HashEntry.text)

def algorithmOf (name : Str) : Option Str := name.tails.find? fun end_ => decide (end_ ∈ hashNames)

section Scan

variable {s rest name digest more : Str} {c : Char}

theorem hashPairsFrom_append (s rest : Str) :
    hashPairsFrom s.length (s ++ rest) = hashPairsFrom 0 rest := by
  induction s with
  | nil => rfl
  | cons c s ih =>
      rw [List.length_cons, List.cons_append, hashPairsFrom]
      exact ih

theorem hashPairAt_cons (h : c ∉ "MS".toList) : hashPairAt (c :: s) = none := by
  have hnone : ∀ known ∈ hashNames, startsWith (known ++ "=") (c :: s) = false := by
    intro known hknown
    have hheads : ∀ known ∈ hashNames, ∃ d ∈ "MS".toList, known.head? = some d := by decide
    obtain ⟨d, hd, hhead⟩ := hheads known hknown
    obtain ⟨t, rfl⟩ := List.head?_eq_some_iff.mp hhead
    rw [startsWith, List.cons_append, List.isPrefixOf_cons_cons, Bool.and_eq_false_iff]
    refine .inl (beq_eq_false_iff_ne.mpr ?_)
    rintro rfl
    exact h hd
  rw [hashPairAt, List.findSome?_eq_none_iff]
  intro known hknown
  rw [hashPairUnder, hnone known hknown]
  rfl

theorem hashPairsFrom_skip (h : ∀ c ∈ s, c ∉ "MS".toList) (rest : Str) :
    hashPairsFrom 0 (s ++ rest) = hashPairsFrom 0 rest := by
  induction s with
  | nil => rfl
  | cons c s ih =>
      rw [List.forall_mem_cons] at h
      rw [List.cons_append, hashPairsFrom, hashPairAt_cons h.1]
      exact ih h.2

theorem startsWith_name {known : Str} (hknown : '=' ∉ known) (hname : '=' ∉ name) :
    startsWith (known ++ "=") (name ++ '=' :: more) = decide (name = known) := by
  induction name generalizing known with
  | nil =>
      cases known with
      | nil => rfl
      | cons d known =>
          rw [List.mem_cons, not_or] at hknown
          rw [startsWith, List.cons_append, List.nil_append, List.isPrefixOf_cons_cons,
            beq_eq_false_iff_ne.mpr (Ne.symm hknown.1)]
          rfl
  | cons c name ih =>
      rw [List.mem_cons, not_or] at hname
      cases known with
      | nil =>
          change ((('=' : Char) == c) && true) = _
          rw [beq_eq_false_iff_ne.mpr hname.1]
          rfl
      | cons d known =>
          rw [List.mem_cons, not_or] at hknown
          have hih := ih hknown.2 hname.2
          rw [startsWith] at hih ⊢
          rw [List.cons_append, List.cons_append, List.isPrefixOf_cons_cons, hih]
          by_cases hcd : c = d
          · subst hcd
            simp
          · rw [beq_eq_false_iff_ne.mpr (Ne.symm hcd)]
            simp [hcd]

def EndsDigest (rest : Str) : Prop := ∀ c, rest.head? = some c → isHexDigit c = false

theorem takeWhile_digest (hdigest : ∀ c ∈ digest, isHexDigit c = true) (hrest : EndsDigest rest) :
    (digest ++ rest).takeWhile isHexDigit = digest := by
  rw [List.takeWhile_append_of_pos hdigest]
  cases rest with
  | nil => simp
  | cons c rest => rw [List.takeWhile_cons_of_neg (by simp [hrest c rfl]), List.append_nil]

theorem hashPairUnder_name {known : Str} (hknown : '=' ∉ known) (hname : '=' ∉ name)
    (hdigest : ∀ c ∈ digest, isHexDigit c = true) (hrest : EndsDigest rest) :
    hashPairUnder (name ++ '=' :: (digest ++ rest)) known =
      if name = known ∧ 32 ≤ digest.length then some (name, digest.take 64) else none := by
  rw [hashPairUnder, startsWith_name hknown hname]
  by_cases heq : name = known
  · subst heq
    have hdrop : (name ++ '=' :: (digest ++ rest)).drop (name.length + 1) = digest ++ rest := by
      rw [← List.drop_drop, List.drop_left]
      rfl
    have hlength : 32 ≤ (digest.take 64).length ↔ 32 ≤ digest.length := by
      rw [List.length_take]
      omega
    rw [if_pos (decide_eq_true rfl), hdrop, takeWhile_digest hdigest hrest]
    simp only [hlength, true_and]
  · rw [decide_eq_false heq, if_neg Bool.false_ne_true, if_neg fun h => heq h.1]

theorem hashPairAt_name (hname : '=' ∉ name) (hdigest : ∀ c ∈ digest, isHexDigit c = true)
    (hrest : EndsDigest rest) :
    hashPairAt (name ++ '=' :: (digest ++ rest)) =
      if name ∈ hashNames ∧ 32 ≤ digest.length then some (name, digest.take 64) else none := by
  have hequals : ∀ known ∈ hashNames, '=' ∉ known := by decide
  have hunder : ∀ known ∈ hashNames, hashPairUnder (name ++ '=' :: (digest ++ rest)) known =
      if name = known ∧ 32 ≤ digest.length then some (name, digest.take 64) else none :=
    fun known hknown => hashPairUnder_name (hequals known hknown) hname hdigest hrest
  rw [hashPairAt]
  by_cases h : name ∈ hashNames ∧ 32 ≤ digest.length
  · rw [if_pos h]
    have hself := hunder name h.1
    rw [if_pos ⟨rfl, h.2⟩] at hself
    cases hfound : hashNames.findSome? (hashPairUnder (name ++ '=' :: (digest ++ rest))) with
    | none =>
        rw [List.findSome?_eq_none_iff] at hfound
        cases hself.symm.trans (hfound name h.1)
    | some pair =>
        obtain ⟨known, hknown, hpair⟩ := List.exists_of_findSome?_eq_some hfound
        rw [hunder known hknown] at hpair
        split at hpair
        · exact hpair.symm
        · cases hpair
  · rw [if_neg h, List.findSome?_eq_none_iff]
    intro known hknown
    rw [hunder known hknown, if_neg]
    rintro ⟨rfl, hlong⟩
    exact h ⟨hknown, hlong⟩

theorem algorithmOf_cons (c : Char) (name : Str) :
    algorithmOf (c :: name) = if c :: name ∈ hashNames then some (c :: name) else algorithmOf name := by
  unfold algorithmOf
  rw [List.tails, List.find?_cons]
  by_cases h : c :: name ∈ hashNames
  · rw [if_pos h, decide_eq_true h]
  · rw [if_neg h, decide_eq_false h]

/-- What is found of an entry: of a known algorithm, a digest that is long enough. -/
def foundUnder (name digest : Str) : List (Str × Str) :=
  match algorithmOf name with
  | some known => if 32 ≤ digest.length then [(known, digest.take 64)] else []
  | none => []

theorem foundUnder_of_short (h : ¬ 32 ≤ digest.length) : foundUnder name digest = [] := by
  unfold foundUnder
  split
  · exact if_neg h
  · rfl

/-- What the scan finds from a place in a name on. -/
theorem hashPairsFrom_name (hname : '=' ∉ name) (hdigest : ∀ c ∈ digest, isHexDigit c = true)
    (hrest : EndsDigest rest) :
    hashPairsFrom 0 (name ++ '=' :: (digest ++ rest)) =
      foundUnder name digest ++ hashPairsFrom 0 rest := by
  have hplain : ∀ c ∈ digest, c ∉ "MS".toList := by
    intro c hc hmem
    have hother : ∀ c ∈ "MS".toList, isHexDigit c = false := by decide
    cases (hdigest c hc).symm.trans (hother c hmem)
  induction name with
  | nil =>
      rw [List.nil_append, hashPairsFrom, hashPairAt_cons (by decide)]
      exact hashPairsFrom_skip hplain rest
  | cons c name ih =>
      have hat := hashPairAt_name hname hdigest hrest
      rw [List.mem_cons, not_or] at hname
      rw [List.cons_append] at hat ⊢
      rw [hashPairsFrom, hat]
      by_cases hknown : c :: name ∈ hashNames
      · by_cases hlong : 32 ≤ digest.length
        · have hcut : name ++ '=' :: (digest ++ rest) =
              (name ++ '=' :: digest.take 64) ++ (digest.drop 64 ++ rest) := by
            rw [List.append_assoc, List.cons_append, ← List.append_assoc (digest.take 64),
              List.take_append_drop]
          have hlength : (c :: name).length + (digest.take 64).length =
              (name ++ '=' :: digest.take 64).length := by
            simp only [List.length_cons, List.length_append]
            omega
          have hbehind : ∀ d ∈ digest.drop 64, d ∉ "MS".toList := fun d hd =>
            hplain d (List.mem_of_mem_drop hd)
          have hskip := hashPairsFrom_skip hbehind rest
          rw [if_pos ⟨hknown, hlong⟩, foundUnder, algorithmOf_cons, if_pos hknown]
          dsimp only
          rw [if_pos hlong, hcut, hlength, hashPairsFrom_append, hskip]
          rfl
        · rw [if_neg fun h => hlong h.2, foundUnder_of_short hlong]
          dsimp only
          rw [ih hname.2, foundUnder_of_short hlong]
      · rw [if_neg fun h => hknown h.1, foundUnder, algorithmOf_cons, if_neg hknown]
        exact ih hname.2

/-- The scan finds the digests of the known algorithms, in their order. -/
theorem hashPairs_hashField (entries : List HashEntry) :
    hashPairs (hashField entries) =
      entries.flatMap fun entry => foundUnder entry.name entry.digest := by
  have htext : ∀ (entry : HashEntry) (rest : Str),
      entry.text ++ rest = entry.name ++ '=' :: (entry.digest ++ rest) := by
    intro entry rest
    rw [HashEntry.text, List.append_assoc, List.append_assoc]
    rfl
  induction entries with
  | nil => rfl
  | cons entry entries ih =>
      cases entries with
      | nil =>
          have hscan := hashPairsFrom_name entry.noEquals entry.hex (nofun : EndsDigest [])
          rw [← htext, List.append_nil] at hscan
          rw [hashField, List.map_singleton, join_singleton, List.flatMap_singleton]
          exact hscan.trans (List.append_nil _)
      | cons next entries =>
          have hcomma : EndsDigest (',' :: hashField (next :: entries)) := by
            intro c hc
            cases hc
            rfl
          have hjoin : hashField (entry :: next :: entries) =
              entry.text ++ ',' :: hashField (next :: entries) := by
            unfold hashField
            rw [List.map_cons, List.map_cons]
            exact join_cons_cons _ _ _
          have hnext : hashPairsFrom 0 (',' :: hashField (next :: entries)) =
              hashPairs (hashField (next :: entries)) := by
            rw [hashPairsFrom, hashPairAt_cons (by decide)]
            rfl
          rw [hjoin, hashPairs, htext, hashPairsFrom_name entry.noEquals entry.hex hcomma, hnext, ih]
          rfl

theorem found_of_isDigest {kind : IndicatorType} (h : IsDigest kind digest)
    (hknown : (algorithmOf name).isSome = true) :
    ∃ known, foundUnder name digest = [(known, digest)] := by
  obtain ⟨known, hname⟩ := Option.isSome_iff_exists.mp hknown
  have hlength : digest.length = 32 ∨ digest.length = 40 ∨ digest.length = 64 := by
    have hkind := h.length
    unfold hashByLength at hkind
    split at hkind <;> simp_all
  refine ⟨known, ?_⟩
  rw [foundUnder, hname]
  dsimp only
  rw [if_pos (by omega), List.take_of_length_le (by omega)]

/-- The integration takes from a `Hashes` field the digests of the algorithms it knows, in
their order, and the middleware looks every proper one up as a digest of the kind its length
says. -/
theorem hashes_taken (rt : Runtime) (alert : Json) {path : Str} (hpath : path ∈ hashesPaths)
    (entries : List HashEntry) (hfield : dig alert path = some (.str (hashField entries))) :
    digestsAt rt alert path = entries.flatMap (fun entry =>
      (foundUnder entry.name entry.digest).map fun pair => rt.lower pair.2) ∧
    ∀ entry ∈ entries, ∀ kind, (algorithmOf entry.name).isSome = true →
      IsDigest kind entry.digest →
        rt.lower entry.digest ∈ listedIndicators rt alert ∧
        ∀ skipPrivate skipTlds, normalize rt skipPrivate skipTlds (rt.lower entry.digest) =
          .ok ⟨rt.lower entry.digest, rt.lower entry.digest, kind, none⟩ := by
  have htaken : digestsAt rt alert path = entries.flatMap (fun entry =>
      (foundUnder entry.name entry.digest).map fun pair => rt.lower pair.2) := by
    unfold digestsAt
    rw [hfield]
    dsimp only
    rw [hashPairs_hashField, List.map_flatMap]
  refine ⟨htaken, fun entry hentry kind hknown hdigest => ⟨?_, fun skipPrivate skipTlds => ?_⟩⟩
  · obtain ⟨known, hfound⟩ := found_of_isDigest hdigest hknown
    apply List.mem_append_right
    refine List.mem_flatMap.mpr ⟨path, hpath, ?_⟩
    rw [htaken]
    refine List.mem_flatMap.mpr ⟨entry, hentry, ?_⟩
    rw [hfound]
    exact List.mem_singleton_self _
  · have hlower : rt.lower (rt.lower entry.digest) = rt.lower entry.digest := by
      rw [hdigest.lower.lower_eq, hdigest.lower_eq, List.map_map]
      exact List.map_congr_left fun c _ => asciiLower_idem c
    rw [normalize_digest hdigest.lower, hlower]

end Scan

def sampleHashes : List HashEntry :=
  [⟨"MD5", "D41D8CD98F00B204E9800998ECF8427E", by decide, by decide⟩,
    ⟨"IMPHASH", "00000000000000000000000000000000", by decide, by decide⟩]

def sampleSysmon : Json :=
  .obj [("data", .obj [("win", .obj [("eventdata", .obj
    [("hashes", .str "MD5=D41D8CD98F00B204E9800998ECF8427E,IMPHASH=00000000000000000000000000000000")
    ])])])]

theorem hashes_taken_sample :
    digestsAt (Runtime.ofAscii []) sampleSysmon "data.win.eventdata.hashes" =
      ["d41d8cd98f00b204e9800998ecf8427e".toList] ∧
    normalize (Runtime.ofAscii []) true [] "d41d8cd98f00b204e9800998ecf8427e" =
      .ok ⟨"d41d8cd98f00b204e9800998ecf8427e", "d41d8cd98f00b204e9800998ecf8427e", .hashMd5,
        none⟩ := by
  obtain ⟨htaken, hlooked⟩ := hashes_taken (Runtime.ofAscii []) sampleSysmon
    (by decide : "data.win.eventdata.hashes".toList ∈ hashesPaths) sampleHashes rfl
  have hdigest : IsDigest .hashMd5 "D41D8CD98F00B204E9800998ECF8427E" :=
    ⟨rfl, List.all_eq_true.mp rfl⟩
  have hlower : (Runtime.ofAscii []).lower "D41D8CD98F00B204E9800998ECF8427E" =
      "d41d8cd98f00b204e9800998ecf8427e".toList := hdigest.lower_eq.trans rfl
  refine ⟨htaken.trans (by decide), ?_⟩
  rw [← hlower]
  exact (hlooked _ List.mem_cons_self _ rfl hdigest).2 true []

end OpenctiLookup

import KineticAtlas.AtlasScripts

/-!
A single row of ATLAS.md between its two scripts. Whatever the free texts of a registration
are, the row that update_atlas_md writes is one line, which the row parsers of both scripts
read back, and which the monitor rebuilds from its cells.
-/
namespace KineticAtlas.AtlasRows

open Library.Texts AtlasTable AtlasScripts

theorem strip_linkTo (target : Str) : strip (linkTo target) = linkTo target := by
  unfold linkTo
  split
  · decide
  · have h := trim_of_ends (p := isPythonSpace) (c := '[') (d := ')') (by decide) (by decide)
      (target ++ "](".toList ++ target)
    simpa [strip] using h

variable {tld status : Str}

theorem rowCells_stripped (hstatus : strip status = status)
    (networkId networkType desc localBindIp url repo : Str) :
    (rowCells tld networkId networkType status desc localBindIp url repo).map strip =
      rowCells tld networkId networkType status desc localBindIp url repo := by
  simp only [rowCells, List.map_cons, List.map_nil, strip_ticked, strip_linkTo, hstatus,
    sanitizeMarkdown, strip_strip]

end KineticAtlas.AtlasRows

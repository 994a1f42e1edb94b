import BuildPlan.Blueprint

namespace BuildPlan.Release

open Blueprint (Entry)

def single (name : Name) : Entry := { name }

def each (group name : Name) (needs : List Name) : Entry :=
  { name, needs, targets := some (.group group) }

def except (exclude : List Name) (entry : Entry) : Entry := { entry with exclude }

def arithmetic : List Entry :=
  [ each "all" "gmp" [],
    each "all" "mpfr" ["gmp"],
    each "all" "mpc" ["gmp", "mpfr"],
    except ["dos"] <| each "all" "libffi" [] ]

def compression : List Entry :=
  [ each "all" "zlib" [],
    each "all" "bzip2" [],
    each "all" "libzip" [],
    each "all" "lzo" [],
    each "all" "xz" [] ]

def images : List Entry :=
  [ each "all" "libpng" [],
    each "all" "giflib" [],
    each "all" "tiff" [],
    each "all" "jpeglib" [] ]

def terminal : List Entry :=
  [ each "linux" "ncurses" [],
    single "gpm-header" ]

def fonts : List Entry :=
  [ except ["dos"] <| each "all" "freetype" ["zlib", "bzip2", "libpng"],
    except ["dos"] <| each "all" "fontconfig" ["zlib", "freetype"] ]

def windowSystem : List Entry :=
  [ each "linux" "damageproto" ["util-macros"],
    each "linux" "dri2proto" ["util-macros"],
    each "linux" "dri3proto" ["util-macros"],
    each "linux" "fixesproto" ["util-macros"],
    each "linux" "glproto" ["util-macros"],
    each "linux" "inputproto" ["util-macros"],
    each "linux" "kbproto" ["util-macros"],
    each "linux" "libdrm" ["util-macros", "libpciaccess"],
    each "linux" "libICE" ["util-macros", "xproto", "xtrans"],
    each "linux" "liblbxutil" ["util-macros", "xproto", "xextproto"],
    each "linux" "libpciaccess" ["util-macros"],
    each "linux" "libpthread-stubs" [],
    each "linux" "libSM" ["util-macros", "libICE", "xproto", "xtrans"],
    each "linux" "libX11" ["util-macros", "xproto", "xextproto", "xtrans", "libxcb", "kbproto",
      "inputproto"],
    each "linux" "libXau" ["util-macros", "xproto"],
    each "linux" "libxcb" ["util-macros", "xcb-proto", "libXau", "libpthread-stubs", "libXdmcp"],
    each "linux" "libXcursor" ["util-macros", "libXrender", "libXfixes", "libX11", "fixesproto"],
    each "linux" "libXdamage" ["util-macros", "damageproto", "libXfixes", "fixesproto",
      "xextproto", "libX11"],
    each "linux" "libXdmcp" ["util-macros", "xproto"],
    each "linux" "libXext" ["util-macros", "xproto", "xextproto", "libX11"],
    each "linux" "libXfixes" ["util-macros", "xproto", "xextproto", "fixesproto", "libX11"],
    each "linux" "libXft" ["util-macros", "libXrender", "freetype", "fontconfig"],
    each "linux" "libXi" ["util-macros", "xproto", "libX11", "xextproto", "libXext", "inputproto",
      "libXfixes"],
    each "linux" "libXinerama" ["util-macros", "libX11", "libXext", "xextproto", "xineramaproto"],
    each "linux" "libXmu" ["util-macros", "libXt", "libXext", "libX11", "xextproto"],
    each "linux" "libXpm" ["util-macros", "xproto", "libX11", "libXt", "libXext", "xextproto"],
    each "linux" "libXrandr" ["util-macros", "libX11", "randrproto", "libXext", "xextproto",
      "libXrender", "renderproto"],
    each "linux" "libXrender" ["util-macros", "libX11", "renderproto"],
    each "linux" "libxshmfence" ["util-macros", "xproto"],
    each "linux" "libXt" ["util-macros", "libSM", "libICE", "libX11", "xproto", "kbproto"],
    each "linux" "libXtst" ["util-macros", "libX11", "libXext", "libXi", "recordproto",
      "xextproto", "inputproto"],
    each "linux" "libXv" ["util-macros", "libX11", "libXext", "xextproto", "videoproto"],
    each "linux" "libXxf86dga" ["util-macros", "xproto", "libX11", "xextproto", "xf86dgaproto",
      "libXext"],
    each "linux" "libXxf86vm" ["util-macros", "xproto", "libX11", "xextproto", "libXext",
      "xf86vidmodeproto"],
    each "linux" "presentproto" ["util-macros"],
    each "linux" "randrproto" ["util-macros"],
    each "linux" "recordproto" ["util-macros"],
    each "linux" "renderproto" ["util-macros"],
    each "linux" "util-macros" [],
    each "linux" "videoproto" ["util-macros"],
    each "linux" "xcb-proto" ["util-macros"],
    each "linux" "xextproto" ["util-macros"],
    each "linux" "xf86dgaproto" ["util-macros"],
    each "linux" "xf86vidmodeproto" ["util-macros"],
    each "linux" "xineramaproto" ["util-macros"],
    each "linux" "xproto" ["util-macros"],
    each "linux" "xtrans" ["util-macros"] ]

def graphics : List Entry :=
  [ each "linux" "mesa" ["libpthread-stubs", "glproto", "libdrm", "dri2proto", "dri3proto",
      "presentproto", "libxcb", "libxshmfence", "libXxf86vm", "libXdamage", "libXfixes"] ]

def toolchains : List Entry :=
  [ each "cross" "binutils-native-to-\x7btarget\x7d" [],
    each "cross" "gcc-native-to-\x7btarget\x7d" ["binutils-native-to-\x7btarget\x7d",
      "gmp-native", "mpfr-native", "mpc-native"],
    single "binutils-win32-to-win32",
    single "binutils-win64-to-win64",
    single "gcc-win32-to-win32",
    single "gcc-win64-to-win64" ]

def compiler : List Entry :=
  [ single "fbc-native",
    each "linux" "fbc-\x7btarget\x7d" ["libffi-\x7btarget\x7d", "ncurses-\x7btarget\x7d",
      "gpm-header", "libX11-\x7btarget\x7d", "libXext-\x7btarget\x7d", "libXrandr-\x7btarget\x7d",
      "libXrender-\x7btarget\x7d", "libXpm-\x7btarget\x7d", "mesa-\x7btarget\x7d"],
    single "fbc-win32",
    single "fbc-win32-standalone",
    single "fbc-win64",
    single "fbc-win64-standalone",
    single "fbc-dos",
    single "fbc-dos-standalone" ]

def blueprint : Blueprint :=
  { assumed := ["gcc-native-to-native"]
    targetNeeds := ["gcc-native-to-\x7btarget\x7d"]
    groups :=
      [ ("all", ["native", "lingnu32", "lingnu64", "linmus32", "linmus64", "win32", "win64", "dos"]),
        ("cross", ["lingnu32", "lingnu64", "linmus32", "linmus64", "win32", "win64", "dos"]),
        ("linux", ["lingnu32", "lingnu64", "linmus32", "linmus64"]) ]
    entries :=
      arithmetic ++ compression ++ images ++ terminal ++ fonts ++ windowSystem ++ graphics ++
        toolchains ++ compiler }

-- The built-in document, row by row.
def rows : List String :=
  [ "# Cross-compilation release pipeline.",
    "#",
    "# Libraries are built once per target platform. A library task `zlib` with",
    r#"# `targets = "all"` expands to `zlib-native`, `zlib-lingnu32`, ... and each"#,
    "# expanded task depends on the matching cross compiler (`target_depends`)",
    "# plus its own dependencies suffixed with the same target.",
    "",
    r#"assume_provided = ["gcc-native-to-native"]"#,
    r#"target_depends = ["gcc-native-to-{target}"]"#,
    "",
    "[targets]",
    r#"all = ["native", "lingnu32", "lingnu64", "linmus32", "linmus64", "win32", "win64", "dos"]"#,
    r#"cross = ["lingnu32", "lingnu64", "linmus32", "linmus64", "win32", "win64", "dos"]"#,
    r#"linux = ["lingnu32", "lingnu64", "linmus32", "linmus64"]"#,
    "",
    "# Arbitrary precision arithmetic, needed by gcc itself",
    "",
    "[[task]]",
    r#"name = "gmp""#,
    r#"targets = "all""#,
    "",
    "[[task]]",
    r#"name = "mpfr""#,
    r#"depends = ["gmp"]"#,
    r#"targets = "all""#,
    "",
    "[[task]]",
    r#"name = "mpc""#,
    r#"depends = ["gmp", "mpfr"]"#,
    r#"targets = "all""#,
    "",
    "[[task]]",
    r#"name = "libffi""#,
    r#"targets = "all""#,
    r#"exclude = ["dos"]"#,
    "",
    "# Compression",
    "",
    "[[task]]",
    r#"name = "zlib""#,
    r#"targets = "all""#,
    "",
    "[[task]]",
    r#"name = "bzip2""#,
    r#"targets = "all""#,
    "",
    "[[task]]",
    r#"name = "libzip""#,
    r#"targets = "all""#,
    "",
    "[[task]]",
    r#"name = "lzo""#,
    r#"targets = "all""#,
    "",
    "[[task]]",
    r#"name = "xz""#,
    r#"targets = "all""#,
    "",
    "# Images",
    "",
    "[[task]]",
    r#"name = "libpng""#,
    r#"targets = "all""#,
    "",
    "[[task]]",
    r#"name = "giflib""#,
    r#"targets = "all""#,
    "",
    "[[task]]",
    r#"name = "tiff""#,
    r#"targets = "all""#,
    "",
    "[[task]]",
    r#"name = "jpeglib""#,
    r#"targets = "all""#,
    "",
    "# Terminal",
    "",
    "[[task]]",
    r#"name = "ncurses""#,
    r#"targets = "linux""#,
    "",
    "[[task]]",
    r#"name = "gpm-header""#,
    "",
    "# Fonts",
    "",
    "[[task]]",
    r#"name = "freetype""#,
    r#"depends = ["zlib", "bzip2", "libpng"]"#,
    r#"targets = "all""#,
    r#"exclude = ["dos"]"#,
    "",
    "[[task]]",
    r#"name = "fontconfig""#,
    r#"depends = ["zlib", "freetype"]"#,
    r#"targets = "all""#,
    r#"exclude = ["dos"]"#,
    "",
    "# X11",
    "",
    "[[task]]",
    r#"name = "damageproto""#,
    r#"depends = ["util-macros"]"#,
    r#"targets = "linux""#,
    "",
    "[[task]]",
    r#"name = "dri2proto""#,
    r#"depends = ["util-macros"]"#,
    r#"targets = "linux""#,
    "",
    "[[task]]",
    r#"name = "dri3proto""#,
    r#"depends = ["util-macros"]"#,
    r#"targets = "linux""#,
    "",
    "[[task]]",
    r#"name = "fixesproto""#,
    r#"depends = ["util-macros"]"#,
    r#"targets = "linux""#,
    "",
    "[[task]]",
    r#"name = "glproto""#,
    r#"depends = ["util-macros"]"#,
    r#"targets = "linux""#,
    "",
    "[[task]]",
    r#"name = "inputproto""#,
    r#"depends = ["util-macros"]"#,
    r#"targets = "linux""#,
    "",
    "[[task]]",
    r#"name = "kbproto""#,
    r#"depends = ["util-macros"]"#,
    r#"targets = "linux""#,
    "",
    "[[task]]",
    r#"name = "libdrm""#,
    r#"depends = ["util-macros", "libpciaccess"]"#,
    r#"targets = "linux""#,
    "",
    "[[task]]",
    r#"name = "libICE""#,
    r#"depends = ["util-macros", "xproto", "xtrans"]"#,
    r#"targets = "linux""#,
    "",
    "[[task]]",
    r#"name = "liblbxutil""#,
    r#"depends = ["util-macros", "xproto", "xextproto"]"#,
    r#"targets = "linux""#,
    "",
    "[[task]]",
    r#"name = "libpciaccess""#,
    r#"depends = ["util-macros"]"#,
    r#"targets = "linux""#,
    "",
    "[[task]]",
    r#"name = "libpthread-stubs""#,
    r#"targets = "linux""#,
    "",
    "[[task]]",
    r#"name = "libSM""#,
    r#"depends = ["util-macros", "libICE", "xproto", "xtrans"]"#,
    r#"targets = "linux""#,
    "",
    "[[task]]",
    r#"name = "libX11""#,
    r#"depends = ["util-macros", "xproto", "xextproto", "xtrans", "libxcb", "kbproto", "inputproto"]"#,
    r#"targets = "linux""#,
    "",
    "[[task]]",
    r#"name = "libXau""#,
    r#"depends = ["util-macros", "xproto"]"#,
    r#"targets = "linux""#,
    "",
    "[[task]]",
    r#"name = "libxcb""#,
    r#"depends = ["util-macros", "xcb-proto", "libXau", "libpthread-stubs", "libXdmcp"]"#,
    r#"targets = "linux""#,
    "",
    "[[task]]",
    r#"name = "libXcursor""#,
    r#"depends = ["util-macros", "libXrender", "libXfixes", "libX11", "fixesproto"]"#,
    r#"targets = "linux""#,
    "",
    "[[task]]",
    r#"name = "libXdamage""#,
    r#"depends = ["util-macros", "damageproto", "libXfixes", "fixesproto", "xextproto", "libX11"]"#,
    r#"targets = "linux""#,
    "",
    "[[task]]",
    r#"name = "libXdmcp""#,
    r#"depends = ["util-macros", "xproto"]"#,
    r#"targets = "linux""#,
    "",
    "[[task]]",
    r#"name = "libXext""#,
    r#"depends = ["util-macros", "xproto", "xextproto", "libX11"]"#,
    r#"targets = "linux""#,
    "",
    "[[task]]",
    r#"name = "libXfixes""#,
    r#"depends = ["util-macros", "xproto", "xextproto", "fixesproto", "libX11"]"#,
    r#"targets = "linux""#,
    "",
    "[[task]]",
    r#"name = "libXft""#,
    r#"depends = ["util-macros", "libXrender", "freetype", "fontconfig"]"#,
    r#"targets = "linux""#,
    "",
    "[[task]]",
    r#"name = "libXi""#,
    r#"depends = ["util-macros", "xproto", "libX11", "xextproto", "libXext", "inputproto", "libXfixes"]"#,
    r#"targets = "linux""#,
    "",
    "[[task]]",
    r#"name = "libXinerama""#,
    r#"depends = ["util-macros", "libX11", "libXext", "xextproto", "xineramaproto"]"#,
    r#"targets = "linux""#,
    "",
    "[[task]]",
    r#"name = "libXmu""#,
    r#"depends = ["util-macros", "libXt", "libXext", "libX11", "xextproto"]"#,
    r#"targets = "linux""#,
    "",
    "[[task]]",
    r#"name = "libXpm""#,
    r#"depends = ["util-macros", "xproto", "libX11", "libXt", "libXext", "xextproto"]"#,
    r#"targets = "linux""#,
    "",
    "[[task]]",
    r#"name = "libXrandr""#,
    r#"depends = ["util-macros", "libX11", "randrproto", "libXext", "xextproto", "libXrender", "renderproto"]"#,
    r#"targets = "linux""#,
    "",
    "[[task]]",
    r#"name = "libXrender""#,
    r#"depends = ["util-macros", "libX11", "renderproto"]"#,
    r#"targets = "linux""#,
    "",
    "[[task]]",
    r#"name = "libxshmfence""#,
    r#"depends = ["util-macros", "xproto"]"#,
    r#"targets = "linux""#,
    "",
    "[[task]]",
    r#"name = "libXt""#,
    r#"depends = ["util-macros", "libSM", "libICE", "libX11", "xproto", "kbproto"]"#,
    r#"targets = "linux""#,
    "",
    "[[task]]",
    r#"name = "libXtst""#,
    r#"depends = ["util-macros", "libX11", "libXext", "libXi", "recordproto", "xextproto", "inputproto"]"#,
    r#"targets = "linux""#,
    "",
    "[[task]]",
    r#"name = "libXv""#,
    r#"depends = ["util-macros", "libX11", "libXext", "xextproto", "videoproto"]"#,
    r#"targets = "linux""#,
    "",
    "[[task]]",
    r#"name = "libXxf86dga""#,
    r#"depends = ["util-macros", "xproto", "libX11", "xextproto", "xf86dgaproto", "libXext"]"#,
    r#"targets = "linux""#,
    "",
    "[[task]]",
    r#"name = "libXxf86vm""#,
    r#"depends = ["util-macros", "xproto", "libX11", "xextproto", "libXext", "xf86vidmodeproto"]"#,
    r#"targets = "linux""#,
    "",
    "[[task]]",
    r#"name = "presentproto""#,
    r#"depends = ["util-macros"]"#,
    r#"targets = "linux""#,
    "",
    "[[task]]",
    r#"name = "randrproto""#,
    r#"depends = ["util-macros"]"#,
    r#"targets = "linux""#,
    "",
    "[[task]]",
    r#"name = "recordproto""#,
    r#"depends = ["util-macros"]"#,
    r#"targets = "linux""#,
    "",
    "[[task]]",
    r#"name = "renderproto""#,
    r#"depends = ["util-macros"]"#,
    r#"targets = "linux""#,
    "",
    "[[task]]",
    r#"name = "util-macros""#,
    r#"targets = "linux""#,
    "",
    "[[task]]",
    r#"name = "videoproto""#,
    r#"depends = ["util-macros"]"#,
    r#"targets = "linux""#,
    "",
    "[[task]]",
    r#"name = "xcb-proto""#,
    r#"depends = ["util-macros"]"#,
    r#"targets = "linux""#,
    "",
    "[[task]]",
    r#"name = "xextproto""#,
    r#"depends = ["util-macros"]"#,
    r#"targets = "linux""#,
    "",
    "[[task]]",
    r#"name = "xf86dgaproto""#,
    r#"depends = ["util-macros"]"#,
    r#"targets = "linux""#,
    "",
    "[[task]]",
    r#"name = "xf86vidmodeproto""#,
    r#"depends = ["util-macros"]"#,
    r#"targets = "linux""#,
    "",
    "[[task]]",
    r#"name = "xineramaproto""#,
    r#"depends = ["util-macros"]"#,
    r#"targets = "linux""#,
    "",
    "[[task]]",
    r#"name = "xproto""#,
    r#"depends = ["util-macros"]"#,
    r#"targets = "linux""#,
    "",
    "[[task]]",
    r#"name = "xtrans""#,
    r#"depends = ["util-macros"]"#,
    r#"targets = "linux""#,
    "",
    "# OpenGL",
    "",
    "[[task]]",
    r#"name = "mesa""#,
    "depends = [\n" ++
      "    \"libpthread-stubs\", \"glproto\", \"libdrm\", \"dri2proto\", \"dri3proto\", \"presentproto\",\n" ++
      "    \"libxcb\", \"libxshmfence\", \"libXxf86vm\", \"libXdamage\", \"libXfixes\",\n]",
    r#"targets = "linux""#,
    "",
    "# Toolchains",
    "",
    "[[task]]",
    r#"name = "binutils-native-to-{target}""#,
    r#"targets = "cross""#,
    "",
    "[[task]]",
    r#"name = "gcc-native-to-{target}""#,
    r#"depends = ["binutils-native-to-{target}", "gmp-native", "mpfr-native", "mpc-native"]"#,
    r#"targets = "cross""#,
    "",
    "[[task]]",
    r#"name = "binutils-win32-to-win32""#,
    "",
    "[[task]]",
    r#"name = "binutils-win64-to-win64""#,
    "",
    "[[task]]",
    r#"name = "gcc-win32-to-win32""#,
    "",
    "[[task]]",
    r#"name = "gcc-win64-to-win64""#,
    "",
    "# The compiler itself",
    "",
    "[[task]]",
    r#"name = "fbc-native""#,
    "",
    "[[task]]",
    r#"name = "fbc-{target}""#,
    "depends = [\n" ++
      "    \"libffi-{target}\", \"ncurses-{target}\", \"gpm-header\", \"libX11-{target}\", \"libXext-{target}\",\n" ++
      "    \"libXrandr-{target}\", \"libXrender-{target}\", \"libXpm-{target}\", \"mesa-{target}\",\n]",
    r#"targets = "linux""#,
    "",
    "[[task]]",
    r#"name = "fbc-win32""#,
    "",
    "[[task]]",
    r#"name = "fbc-win32-standalone""#,
    "",
    "[[task]]",
    r#"name = "fbc-win64""#,
    "",
    "[[task]]",
    r#"name = "fbc-win64-standalone""#,
    "",
    "[[task]]",
    r#"name = "fbc-dos""#,
    "",
    "[[task]]",
    r#"name = "fbc-dos-standalone""# ]

def text : String := String.join (rows.map (· ++ "\n"))

end BuildPlan.Release

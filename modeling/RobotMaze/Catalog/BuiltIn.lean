import RobotMaze.Catalog.Basic

/-!
# The built-in catalog

Three presets with three variants each.  The maps are drawn with their outer walls.
-/

namespace RobotMaze.Catalog

/-- Corridors with one key. -/
def corridors : Preset where
  name := "twisting corridor"
  variants :=
    [{ name := "L-shaped corridor"
       facing := "east"
       rows :=
         ["*********",
          "*R*******",
          "*K*******",
          "*.*******",
          "*.*******",
          "*E....D.*",
          "*********"] },
     { name := "S-shaped corridor"
       facing := "east"
       rows :=
         ["***********",
          "*R......D.*",
          "*.*********",
          "*.*********",
          "*.*********",
          "*.*********",
          "*.K.......*",
          "*********.*",
          "*********.*",
          "*E........*",
          "***********"] },
     { name := "zigzag corridor"
       facing := "south"
       rows :=
         ["*********",
          "*R......*",
          "*******.*",
          "*K.....D*",
          "*.*******",
          "*.......*",
          "*******.*",
          "*E......*",
          "*********"] }]

/-- Open rooms with one key. -/
def rooms : Preset where
  name := "rectangular room"
  variants :=
    [{ name := "small room"
       facing := "north"
       rows :=
         ["*****",
          "*K.E*",
          "*R.D*",
          "*****"] },
     { name := "medium room"
       facing := "north"
       rows :=
         ["********",
          "*....E.*",
          "*......*",
          "*..K...*",
          "*....D.*",
          "*R.....*",
          "********"] },
     { name := "large room"
       facing := "north"
       rows :=
         ["**********",
          "*......E.*",
          "*........*",
          "*........*",
          "*..K.....*",
          "*......D.*",
          "*R.......*",
          "**********"] }]

/-- Open rooms with several keys. -/
def keyRooms : Preset where
  name := "multi-key room"
  variants :=
    [{ name := "small multi-key room"
       facing := "west"
       correctKey := some [1, 1]
       rows :=
         ["*****",
          "*K.E*",
          "*RDK*",
          "*****"] },
     { name := "medium multi-key room"
       facing := "south"
       correctKey := some [4, 5]
       rows :=
         ["********",
          "*..E...*",
          "*..K...*",
          "*R.....*",
          "*..K..D*",
          "*...K..*",
          "********"] },
     { name := "large multi-key room"
       facing := "east"
       correctKey := some [1, 1]
       rows :=
         ["**********",
          "*K....E..*",
          "*........*",
          "*....K...*",
          "*........*",
          "*..K...D.*",
          "*........*",
          "*R...K...*",
          "**********"] }]

/-- The catalog that is used when no other one is given. -/
def builtIn : Catalog :=
  ofPresets [("1", corridors), ("2", rooms), ("3", keyRooms)]

end RobotMaze.Catalog

import TraceSynth.Text.Bytes

/-!
# The seeding table of the lagged Fibonacci source

The 607 words the source's seeding mixes into its state: the state of the generator after
`7.8e12` steps from a fixed start, as two's-complement 64-bit words.
-/

namespace TraceSynth

namespace Random

/-- The seeding table. -/
def cooked : Array UInt64 := #[
  14264951931575795690, 13869761123581321051, 1395769623340756751, 5333664234075297259,
  12099064557210750862, 9033628115061424579, 7143218595135194537, 4812947590706362721,
  7937252194349799378, 5307299880338848416, 8209348851763925077, 11339113636173589852,
  4593015457530856296, 8140875735541888011, 12542801278119864834, 17843187685045096842,
  10950446080338395308, 113108499721038619, 4569519971459345583, 14286205895930090539,
  11610990808113840232, 11939503381211461920, 6559392774825876886, 7650093201692370310,
  7684323884043752161, 9481239872850807198, 15816828556263790972, 271327514973697897,
  12012758484194894092, 1065192797246149621, 3344507881999356393, 13683169978634842441,
  7465081662728599889, 1014950805555097187, 13672812766200766583, 12704481403293278451,
  2418672789110888383, 5796562887576294778, 4484266064449540171, 3738982361971787048,
  13746969221367130231, 10530508058128498, 17857205820137121926, 11848681966483567436,
  8660405965245884302, 10162832508971942, 15764086717816593199, 7031802312784620857,
  6240911277345944669, 831864355460801054, 17227806174396928699, 2116287251661052151,
  2202309800992166967, 9161020366945053561, 4069299552407763864, 4936383537992622449,
  457351505131524928, 9565567082782955162, 12071143719671376317, 11291392152841152326,
  4368649989588021065, 887231587095185257, 14786963543741352304, 16039597237106726104,
  5616972787034086048, 17695181340249612374, 1686575021641186857, 13268856374929037810,
  13467528252056554731, 17071589370638353195, 5632136521049761902, 10056655178912611080,
  18253098545223853001, 12466955171518863100, 13539743138659252895, 18161222016820773788,
  15670312443665209909, 1679342092332374735, 6050638460742422078, 16216892756364357390,
  16864249889369069417, 5881353426285907985, 812786550756860885, 4541845584483343330,
  11948842253131784894, 4980675660146853729, 14434141117458011869, 18117655355845306629,
  15549814841604860090, 1495812843684243920, 16293123615653903827, 7370257291860230865,
  15980301312211718069, 4706794511633873654, 17047892504682674471, 8549875090542453214,
  9257022866333371964, 10552290472606098451, 7297902601803624459, 1011190183918857495,
  11461397073672630752, 5147159997473910359, 10119884128415298790, 2659470849286379941,
  6097729358393448602, 10955098023159529492, 13329627878838588519, 17550527247576311316,
  17700883657540850210, 5803876044675762232, 17658789817714997470, 15212224893505847052,
  13939209333958727718, 16789544008119260922, 505808562678895611, 14293470217549839178,
  10065482703630647321, 572156825025677802, 1791881013492340891, 3393267094866038768,
  13002093887327012317, 2352769483186201278, 10515831620702143266, 18121279080529864227,
  15005181073998939344, 11957330830884268321, 5092019688680754699, 18219496591627302649,
  4234737173186232084, 5027558287275472836, 4635198586344772304, 17910710930121915159,
  5907508150730407386, 10008128292328720260, 972392927514829904, 14645429731662950920,
  14381792679824059699, 18271903715413419033, 2407211146698877100, 16806654253375875377,
  3940796514530962282, 12564546667899982183, 3095313889586102949, 16628693932543014518,
  5832080132947175283, 7890064875145919662, 8184139210799583195, 10373231898264001938,
  10687969280694987110, 13865020044042767681, 3516491885471466898, 10179660558646433500,
  6657089965014657519, 5220884358887979358, 1796677326474620641, 5340761970648932916,
  1147977171614181568, 5066037465548252321, 2574765911837859848, 1085848279845204775,
  12573479566723166167, 6116438694366558490, 2107701075971293812, 11026666102776045075,
  2469478054175558874, 16591615317874741792, 13015280404698453334, 9408419007971232445,
  11480467793368215456, 7217693971077460129, 10132421989934280067, 7196649268545224266,
  14861032382255645407, 13178916982282740991, 8057528650917418961, 13362640477155903451,
  15845298625368343867, 10596733173657457249, 6527366231383600011, 3507654575162700890,
  9202058512774729859, 1954818376891585542, 15863752943984951513, 8299563319178235687,
  13125239392073730181, 7046310742295574065, 16070567428188766040, 10796010137373643861,
  8850422670118399721, 3631909142291992901, 5158881091950831288, 12106330354197897401,
  4763258931815816403, 6280052734341785344, 13467161445059740658, 2043464728020827976,
  15768672502876861273, 4562580375758598164, 5495451168795427352, 10961684898444926903,
  553004618757816492, 6895160632757959823, 17456995959119460979, 7139506338801360852,
  17774263259242767477, 5535668688139305547, 2430933853350256242, 14625313294717976884,
  17383012075962504607, 15380865868455546174, 7632066283658143750, 6308328381617103346,
  3681878764086140361, 3289686137190109749, 6587997200611086848, 244714774258135476,
  13303160414271911908, 8090302575944624335, 2945117363431356361, 10087696432703516853,
  3009039260312620700, 17653399496937309839, 401084700045993341, 16477994483293470729,
  4707864159563588614, 14863620567818269759, 15205879749544773701, 12538470279136985913,
  14727219615626694234, 13165343404029969690, 8118566580304798074, 3839261274019871296,
  7062410411742090847, 9964753039834983476, 6027994129690250817, 11721202031004839738,
  15474762371281004642, 10592302284758294641, 8809096399316380241, 6492004350391900708,
  2462145737463489636, 9628200455775074982, 13376398471086466403, 9485157752110251748,
  14688087421454847165, 9816082441233538825, 6764129236657751224, 17737027755394133257,
  15043715700656690016, 9608670561538565719, 14447507040292975275, 15526503678193577953,
  16373494598164147200, 368107899140673753, 12338558871413087366, 12139008390439056859,
  4782583894627718279, 6718292300699989587, 8387085186914375220, 3387513132024756289,
  4654329375432538231, 18154039598218157410, 14597745473731095081, 7623042350483453954,
  7725442901813263321, 9186225467561587250, 13314399326452279163, 11581003643347355608,
  2530936820058611833, 1636551876240043639, 14788036711189741607, 1452244145334316253,
  11285014417874466637, 10502952303350069844, 9108481583171221009, 15246650723588825617,
  5007630032676973346, 2153168792952589781, 6720334534964750538, 15264918527989569913,
  3433922409283786309, 2285479922797300912, 3110614940896576130, 15589931627577618701,
  14642163456520912317, 7163298419643543757, 4891138053923696990, 580618510277907015,
  1684034065251686769, 4429514767357295841, 9553718615410225813, 10343010032666950483,
  7177515271653460134, 4589042248470800257, 16916660665913780371, 143607045258444228,
  246994305896273627, 10089789361657875095, 6473547110565816071, 3092379936208876896,
  2058427839513754051, 14357156745381643746, 8785882556301281247, 15372704703695943419,
  17809214218309247943, 6137678347805511274, 11293819221291745814, 5708223427705576541,
  15223029929313020312, 4358391411789012426, 325123008708389849, 6837621693887290924,
  4843721905315627004, 15234023259004052223, 14621724235818650460, 4602025990114250980,
  1044646352569048800, 9106614159853161675, 10052628152083369077, 14142656405957772808,
  2681532557646850893, 3681559472488511871, 14531371555812989843, 15557502425297605082,
  11882080269771313412, 10386685901906962095, 581945337509520675, 3648778920718647903,
  13647045283161320222, 10844171820851731551, 220828013409515943, 17373756736854165569,
  4287360518296753003, 13813372221700659651, 5513660857261085186, 16188201137247550083,
  9702363725205551843, 8746140185685648781, 228500091334420247, 1356187007457302238,
  3019253992034194581, 3152601605678500003, 9653524789560778021, 5559581553696971176,
  4916432985369275664, 9886946968589330199, 12644145875782507884, 2868348622579915573,
  11222691170899194328, 12552061555491058531, 2587672709781371173, 10740627350384175141,
  3092343956317362483, 12885624555861839916, 972445599196498113, 16888237472730735175,
  1708913533482282562, 16141189199523644302, 12441001059400088708, 11793415064076482915,
  17963160876398400421, 2488075924621352812, 13917374432242212476, 13783000518653290164,
  2997203966153298104, 1282559373026354493, 240113143146674385, 8665713329246516443,
  628141331766346752, 13795322854041546284, 10696183225007011216, 7596648026010355826,
  15314591454609200551, 7834161864828164065, 7103445518877254909, 4390861237357459201,
  13666025901095347542, 18126854441702107176, 622261699494173647, 15260633287151989056,
  9727776984920484926, 16498587563071888869, 10234548817710777208, 11418122142478236871,
  2623071828615234808, 14380685764928611916, 12961777148821377852, 11763139560931505378,
  11690656433204045150, 5256026990536851868, 7841086888628396109, 6640857538655893162,
  10425459375893093306, 11336887029295491786, 16757722932197707211, 14148656771753260553,
  14368995808332269613, 17448512916989748140, 2719520354384050532, 9132346697815513771,
  4332154495710163773, 16361161630949122724, 6994721091344268833, 15890600611723824742,
  9878812082581453307, 59934747298466858, 15348346064932812213, 18181146817510141226,
  2332206071942466437, 10924428749141145435, 3154897383618636503, 10861138218242383335,
  11683893314622352341, 197309393502684135, 9867049891240043123, 2543179307861934850,
  4350769010207485119, 13978024126265443480, 11238967539496290320, 17222431495831234416,
  4287946071480840813, 8362686366770308971, 6486469209321732151, 12841099882696571834,
  16777725562689078052, 4450022655153542367, 10828567777068311557, 14550386602160284195,
  13849947850405104128, 11915594057452480957, 9464417610572025676, 14321419011481869818,
  17140254332315506072, 10108189127152306387, 5329160409530630596, 7790979528857726136,
  4955070238059373407, 14141909312277450110, 12231448220805180437, 3007769226071157901,
  11693718272472578828, 8928702772696731736, 7856187920214445904, 13698246622246750693,
  7900176660600710914, 11363943164771002480, 11648817094119975779, 11709427190196623638,
  4186670094382025798, 1883939007446035042, 18032038080929643793, 3734134241178479257,
  4065968871360089196, 6953124200385847784, 10529058851593674865, 10861111135869233455,
  12879497697802769017, 13190131671487942828, 3106378204088556331, 15552271859633225618,
  4565385105440252958, 1979884289539493806, 11555165223775641233, 3783206694208922581,
  8464961209802336085, 2843963751609577687, 3030678195484896323, 14017089610950548412,
  4459239494808162889, 402587895800087237, 8057891408711167515, 4541888170938985079,
  1042662272908816815, 14780675093977344766, 2647678726283249984, 2144477441549833761,
  15029724252210162895, 16341143040328679431, 5916597177708541638, 9685969752307097169,
  8833658097025758785, 5970273481425315300, 563813119381731307, 11991721587507472823,
  1598828206250873866, 14429765684258333918, 15458415522564037631, 12375589438869415304,
  8469693267274066490, 125672920241807416, 14534451660878836746, 15887126969165267395,
  17960220331903527524, 13711411811846837686, 5923302823487327109, 9364263827937879044,
  16638314830248350098, 7990420780896957397, 4317817392807076702, 3625184369705367340,
  11964094802142898511, 14966472046557534152, 15221270677363814967, 18077865378207259971,
  14465580072287683609, 9924710936745763006, 7609280429197514109, 3020985755112334161,
  15874694743910288674, 2635195723621160615, 5144520864246028816, 10258458552582605636,
  1567242097116389047, 8172389260191636581, 15561192388284068081, 11386384603851234733,
  11966562939745038489, 11129739670076099235, 6011544915663598137, 5932255307352610768,
  2241128460406315459, 10118876933071471396, 3094483003111372717, 4583857460292963101,
  9079887171656594975, 18062661218785487211, 14986112424097833681, 4225072055348026230,
  11061592635243808871, 3801620336801580414, 18046898656934849664, 10999989642439876143,
  7899055018877642622, 5421679761463003041, 5521102963086275121, 13471651480414141706,
  8735487530905098534, 10983899128428468786, 16365857086512521702, 17446028909781993931,
  14192903601778480131, 12617847979051648288, 6424174453260338141, 359248545074932887,
  12497023319686506406, 16020478236651914404, 3030918217665093212, 9368972871472089844,
  15259947892920402041, 740416251634527158, 16303799672304711390, 6951781370868335478,
  399922722363687927, 9518274351302028993, 17068322973193954331, 10103692895489484850,
  15416027717663451387, 9634976723239486196, 9026808440365124461, 6440783557497587732,
  4615674634722404292, 539897290441580544, 2096238225866883852, 8751955639408182687,
  11130596944907065411, 7381039757301768559, 6157238513393239656, 16973366268768933383,
  8629571604380892756, 5280433031239081479, 7101611890139813254, 2479018537985767835,
  7169176924412769570, 17165438534647979110, 10581131765910333496, 2278447439451174845,
  3625338785743880657, 6477479539006708521, 8976185375579272206, 14734743591566611928,
  1326024180520890843, 7537449876596048829, 5464680203499696154, 3189671183162196045,
  6346751753565857109, 9464532024175406115, 12319165486513457861, 18201704883591085967,
  12126166699127923024, 7208698530190629697, 7276901792339343736, 10955757266169218948,
  4133292154170828382, 2918308698224194548, 10742833434791920266, 14517306749471367572,
  14146200990878228472, 12102583570351201449, 5896236396443472108, 17688415852206528233,
  16552392433726400548, 18138843753869264396, 12168274672532238855, 16275451110348240942,
  8382142935188824023, 9103922860780351547, 4152330101494654406
]

end Random

end TraceSynth
